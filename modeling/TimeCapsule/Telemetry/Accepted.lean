import TimeCapsule.Telemetry.Values

/-!
# The replies that are accepted

A reply is accepted exactly when it is a JSON object whose members the reader allows, and it asks for
debugging with the value of its one `DEBUG` member.
-/

namespace TimeCapsule.Telemetry

open Lib Lib.JsonText

variable {r rest w : Bytes} {codes : List Nat}

/-! ## Members -/

def debugKey : List Nat := (ascii "DEBUG").map UInt8.toNat

def signatureKey : List Nat := (ascii "DEBUG_SIGNATURE").map UInt8.toNat

/-- The value of a member that the reader knows. -/
def AllowedValue (codes : List Nat) (text : Bytes) : Prop :=
  (codes = debugKey → text = ascii "true" ∨ text = ascii "false") ∧
    (codes = signatureKey → ∃ signature, StringText signature text ∧ signature.length ≤ 128)

/-- The key is counted in code points. -/
def Allowed (m : List Nat × Bytes) : Prop := m.1.length ≤ 255 ∧ AllowedValue m.1 m.2

/-- What the reader makes of the text of a signature. -/
def signatureOf (text : Bytes) : Bytes :=
  (string (some 129) text).toOption.join.elim [] Prod.fst

def mayValue (codes : List Nat) (s : ParseState) (_ : Bytes) : Prop :=
  (codes = debugKey → s.seenDebug = false) ∧ (codes = signatureKey → s.seenSignature = false)

def afterValue (codes : List Nat) (s : ParseState) (text : Bytes) : ParseState :=
  if codes = debugKey then
    { s with seenDebug := true, parsed := { s.parsed with debug := s.parsed.debug || text == ascii "true" } }
  else if codes = signatureKey then
    { s with seenSignature := true, parsed := { s.parsed with signature := signatureOf text } }
  else s

def mayMember (s : ParseState) (m : List Nat × Bytes) : Prop := mayValue m.1 s m.2

def afterMember (s : ParseState) (m : List Nat × Bytes) : ParseState := afterValue m.1 s m.2

/-- A value with the key it has. -/
def KnownValue (codes : List Nat) (value text : Bytes) : Prop :=
  text = value ∧ ValueText 16 value ∧ AllowedValue codes value

/-- What `out` gets for a name that is ASCII is another name for other code points. -/
theorem map_stored_eq_iff {name : Bytes} (hname : ∀ b ∈ name, b ≠ 0x3f ∧ 0 < b.toNat ∧ b.toNat ≤ 127) :
    codes.map stored = name ↔ codes = name.map UInt8.toNat := by
  constructor
  · rintro rfl
    rw [List.map_map]
    conv_lhs => rw [← List.map_id codes]
    apply List.map_congr_left
    intro c hc
    obtain ⟨hne, _, _⟩ := hname (stored c) (List.mem_map_of_mem hc)
    by_cases hlarge : 127 < c ∨ c = 0
    · exact absurd (if_pos hlarge) hne
    · show c = (stored c).toNat
      rw [stored, if_neg hlarge, UInt8.toNat_ofNat']
      omega
  · rintro rfl
    rw [List.map_map]
    conv_rhs => rw [← List.map_id name]
    apply List.map_congr_left
    intro b hb
    obtain ⟨_, hpos, hle⟩ := hname b hb
    show stored b.toNat = b
    rw [stored, if_neg (by omega), UInt8.ofNat_toNat]

theorem ascii_debug : ascii "DEBUG" = [0x44, 0x45, 0x42, 0x55, 0x47] := by decide +kernel

theorem ascii_debug_signature : ascii "DEBUG_SIGNATURE" =
    [0x44, 0x45, 0x42, 0x55, 0x47, 0x5f, 0x53, 0x49, 0x47, 0x4e, 0x41, 0x54, 0x55, 0x52, 0x45] := by
  decide +kernel

example : ascii "DEBUG" ≠ ascii "DEBUG_SIGNATURE" := by decide +kernel

theorem stored_debug_iff : codes.map stored = ascii "DEBUG" ↔ codes = debugKey :=
  map_stored_eq_iff (by rw [ascii_debug]; decide +kernel)

theorem stored_signature_iff : codes.map stored = ascii "DEBUG_SIGNATURE" ↔ codes = signatureKey :=
  map_stored_eq_iff (by rw [ascii_debug_signature]; decide +kernel)

theorem signatureKey_ne : signatureKey ≠ debugKey := by
  rw [signatureKey, debugKey, ascii_debug, ascii_debug_signature]
  decide

/-! ## The values of the members -/

theorem ascii_true_append_ne (r r' : Bytes) : ascii "true" ++ r ≠ ascii "false" ++ r' := by
  rw [ascii_true, ascii_false]
  exact fun h => absurd (List.cons.inj h).1 (by decide)

/-- One of the two literals is next, or neither of them. -/
theorem debugMember_cases {s : ParseState} (hseen : s.seenDebug = false) (r : Bytes) :
    (∃ text rest, (text = ascii "true" ∨ text = ascii "false") ∧ space r = text ++ rest ∧
        debugMember s r = .ok (some (afterValue debugKey s text, rest))) ∨
      ¬ ascii "true" <+: space r ∧ ¬ ascii "false" <+: space r ∧ debugMember s r = .ok none := by
  rw [debugMember, if_neg (by rw [hseen]; exact Bool.false_ne_true)]
  rcases literal_cases r (ascii "true") with ⟨rest, hspace, h⟩ | ⟨htrue, h⟩
  · refine .inl ⟨_, rest, .inl rfl, hspace, ?_⟩
    rw [h, afterValue, if_pos rfl, beq_self_eq_true, Bool.or_true]
    rfl
  rw [h, ok_bind]
  rcases literal_cases (space r) (ascii "false") with ⟨rest, hspace, h⟩ | ⟨hfalse, h⟩
  · rw [space_space] at hspace
    refine .inl ⟨_, rest, .inr rfl, hspace, ?_⟩
    have hne : (ascii "false" == ascii "true") = false := by rw [ascii_true, ascii_false]; rfl
    rw [afterValue, if_pos rfl, hne, Bool.or_false]
    simp [h]
  · rw [space_space] at hfalse
    refine .inr ⟨htrue, hfalse, ?_⟩
    simp [h]

theorem debugMember_seen {s : ParseState} (hseen : s.seenDebug = true) (r : Bytes) :
    debugMember s r = .ok none := if_pos hseen

theorem debug_known {text t : Bytes} : KnownValue debugKey text t ↔
    t = text ∧ (text = ascii "true" ∨ text = ascii "false") := by
  constructor
  · exact fun ⟨ht, _, hallowed⟩ => ⟨ht, hallowed.1 rfl⟩
  · rintro ⟨ht, htext⟩
    refine ⟨ht, .inr (.inr (.inr (.inl ?_))), fun _ => htext, fun h => absurd h.symm signatureKey_ne⟩
    rcases htext with rfl | rfl <;> simp [literals]

theorem mayValue_debug {s : ParseState} {text : Bytes} :
    mayValue debugKey s text ↔ s.seenDebug = false :=
  ⟨fun h => h.1 rfl, fun h => ⟨fun _ => h, fun h' => absurd h'.symm signatureKey_ne⟩⟩

theorem debugMember_reads : ReadsItem debugMember (KnownValue debugKey) (afterValue debugKey)
    (mayValue debugKey) where
  total s r := by
    cases hseen : s.seenDebug with
    | true => exact ⟨none, debugMember_seen hseen r⟩
    | false =>
      rcases debugMember_cases hseen r with ⟨_, _, _, _, h⟩ | ⟨_, _, h⟩
      · exact ⟨_, h⟩
      · exact ⟨_, h⟩
  sound {s s' r rest} hread := by
    cases hseen : s.seenDebug with
    | true =>
      rw [debugMember_seen hseen] at hread
      cases hread
    | false =>
      obtain ⟨w, hw, hr, _⟩ := space_split r
      rcases debugMember_cases hseen r with ⟨text, _, htext, hspace, h⟩ | ⟨_, _, h⟩
      · rw [h] at hread
        cases hread
        rw [hspace] at hr
        exact ⟨w, text, text, hw, debug_known.mpr ⟨rfl, htext⟩, mayValue_debug.mpr hseen, rfl, hr⟩
      · rw [h] at hread
        cases hread
  complete {s text w t rest} hw htext hmay _ := by
    obtain ⟨rfl, htext⟩ := debug_known.mp htext
    have hspace : space (w ++ (t ++ rest)) = t ++ rest := by
      rw [space_append hw]
      rcases htext with rfl | rfl
      · rw [ascii_true]
        exact space_head rfl _
      · rw [ascii_false]
        exact space_head rfl _
    have hfront : t <+: space (w ++ (t ++ rest)) := by
      rw [hspace]
      exact List.prefix_append t rest
    rcases debugMember_cases (mayValue_debug.mp hmay) (w ++ (t ++ rest)) with
      ⟨text, rest', htext', hspace', h⟩ | ⟨htrue, hfalse, _⟩
    · rw [hspace] at hspace'
      rcases htext with rfl | rfl <;> rcases htext' with rfl | rfl
      · rw [h, List.append_cancel_left hspace']
      · exact absurd hspace' (ascii_true_append_ne _ _)
      · exact absurd hspace'.symm (ascii_true_append_ne _ _)
      · rw [h, List.append_cancel_left hspace']
    · rcases htext with rfl | rfl
      · exact absurd hfront htrue
      · exact absurd hfront hfalse

theorem signature_fits : Fits (some 129) [] := by
  rintro n ⟨⟩
  decide

theorem signatureOf_eq {signature : List Nat} {text : Bytes} (h : StringText signature text)
    (hlen : signature.length ≤ 128) : signatureOf text = signature.map stored := by
  have hread := (string_finds signature_fits text).eq_some (a := (signature.map stored, []))
    ⟨[], text, blank_nil, ⟨signature, h, rfl, by simp; omega⟩, by simp⟩
  rw [signatureOf, hread]
  rfl

theorem signature_known {text t : Bytes} : KnownValue signatureKey text t ↔
    t = text ∧ ∃ signature, StringText signature text ∧ signature.length ≤ 128 := by
  constructor
  · exact fun ⟨ht, _, hallowed⟩ => ⟨ht, hallowed.2 rfl⟩
  · rintro ⟨ht, signature, htext, hlen⟩
    exact ⟨ht, .inl ⟨signature, htext⟩, fun h => absurd h signatureKey_ne, fun _ => ⟨signature, htext, hlen⟩⟩

theorem mayValue_signature {s : ParseState} {text : Bytes} :
    mayValue signatureKey s text ↔ s.seenSignature = false :=
  ⟨fun h => h.2 rfl, fun h => ⟨fun h' => absurd h' signatureKey_ne, fun _ => h⟩⟩

/-- What is read as the signature. -/
theorem signatureMember_finds (s : ParseState) (r : Bytes) : Finds (signatureMember s r) fun found =>
    s.seenSignature = false ∧ ∃ w text, Blank w ∧ KnownValue signatureKey text text ∧
      found.1 = afterValue signatureKey s text ∧ r = w ++ (text ++ found.2) := by
  cases hseen : s.seenSignature with
  | true =>
    rw [signatureMember, if_pos hseen]
    exact finds_none fun _ h => by cases h.1
  | false =>
    rw [signatureMember, if_neg (by rw [hseen]; exact Bool.false_ne_true)]
    apply ((string_finds signature_fits r).then_finds fun found _ => finds_some fun _ => Iff.rfl).congr
    rintro ⟨s', rest⟩
    constructor
    · rintro ⟨⟨out, _⟩, ⟨w, text, hw, ⟨codes, htext, rfl, hlen⟩, rfl⟩, hs⟩
      cases hs
      have hlen : codes.length ≤ 128 := by
        rw [List.nil_append, List.length_map] at hlen
        omega
      refine ⟨rfl, w, text, hw, signature_known.mpr ⟨rfl, codes, htext, hlen⟩, ?_, rfl⟩
      rw [afterValue, if_neg signatureKey_ne, if_pos rfl, signatureOf_eq htext hlen]
      rfl
    · rintro ⟨_, w, text, hw, hknown, hs', hr⟩
      obtain ⟨_, codes, htext, hlen⟩ := signature_known.mp hknown
      refine ⟨(codes.map stored, rest), ⟨w, text, hw, ⟨codes, htext, rfl, by simp; omega⟩, hr⟩, ?_⟩
      rw [afterValue, if_neg signatureKey_ne, if_pos rfl, signatureOf_eq htext hlen] at hs'
      exact Prod.ext hs'.symm rfl

theorem signatureMember_reads : ReadsItem signatureMember (KnownValue signatureKey)
    (afterValue signatureKey) (mayValue signatureKey) where
  total s r := (signatureMember_finds s r).imp fun _ h => h.1
  sound {s s' r rest} hread := by
    obtain ⟨y, hy, hfound⟩ := signatureMember_finds s r
    obtain ⟨hseen, w, text, hw, hknown, hs', hr⟩ :=
      (hfound (s', rest)).mp (Except.ok.inj (hy.symm.trans hread))
    exact ⟨w, text, text, hw, hknown, mayValue_signature.mpr hseen, hs', hr⟩
  complete {s text w t rest} hw htext hmay _ := by
    obtain rfl := htext.1
    exact (signatureMember_finds s _).eq_some
      ⟨mayValue_signature.mp hmay, w, t, hw, htext, rfl, rfl⟩

/-- A value that is skipped. -/
theorem skipped_reads (hdebug : codes ≠ debugKey) (hsignature : codes ≠ signatureKey) :
    ReadsItem (fun s r => (value 16 r).map (·.map fun r => (s, r))) (KnownValue codes)
      (afterValue codes) (mayValue codes) where
  total _ r := map_total ((value_reads 16).total r)
  sound {s s' r rest} hread := by
    obtain ⟨_, hvalue, hrest⟩ := map_ok_some hread
    obtain ⟨w, text, hw, htext, hr⟩ := (value_reads 16).sound hvalue
    cases hrest
    exact ⟨w, text, text, hw, ⟨rfl, htext, fun h => absurd h hdebug, fun h => absurd h hsignature⟩,
      ⟨fun h => absurd h hdebug, fun h => absurd h hsignature⟩,
      by rw [afterValue, if_neg hdebug, if_neg hsignature], hr⟩
  complete {s text w t rest} hw htext _ hahead := by
    obtain ⟨rfl, htext, _⟩ := htext
    rw [(value_reads 16).complete hw htext hahead, afterValue, if_neg hdebug, if_neg hsignature]
    rfl

/-! ## The members -/

/-- The reader of a value, by its key. -/
theorem valueMember_reads (codes : List Nat) :
    ReadsItem (fun s r => if codes.map stored = ascii "DEBUG" then debugMember s r
        else if codes.map stored = ascii "DEBUG_SIGNATURE" then signatureMember s r
        else (value 16 r).map (·.map fun r => (s, r)))
      (KnownValue codes) (afterValue codes) (mayValue codes) := by
  simp only [stored_debug_iff, stored_signature_iff]
  by_cases hdebug : codes = debugKey
  · subst hdebug
    simp only [if_true]
    exact debugMember_reads
  · simp only [if_neg hdebug]
    by_cases hsignature : codes = signatureKey
    · subst hsignature
      simp only [if_true]
      exact signatureMember_reads
    · simp only [if_neg hsignature]
      exact skipped_reads hdebug hsignature

/-- A member of a reply, with its text. -/
def ReplyMember (m : List Nat × Bytes) (text : Bytes) : Prop :=
  MemberText (fun _ => ValueText 16) m text ∧ Allowed m

theorem key_fits : Fits (some 256) [] := by
  rintro n ⟨⟩
  decide

theorem member_reads : ReadsItem member ReplyMember afterMember mayMember where
  total s r := by
    obtain ⟨y, hy, hfound⟩ := key_finds key_fits r
    rw [member, hy]
    cases y with
    | none => exact ⟨none, rfl⟩
    | some found =>
      obtain ⟨_, _, _, ⟨codes, _, _, _, _, ⟨hout, _⟩, _⟩, _⟩ := (hfound found).mp rfl
      obtain ⟨_, hvalue⟩ := (valueMember_reads codes).total s found.2
      rw [List.nil_append] at hout
      exact ⟨_, by rw [← hvalue, ← hout]; rfl⟩
  sound {s s' r rest} hread := by
    obtain ⟨y, hy, hfound⟩ := key_finds key_fits r
    rw [member, hy] at hread
    cases y with
    | none => cases hread
    | some found =>
      obtain ⟨_, r₁⟩ := found
      obtain ⟨w, _, hw, ⟨codes, string, before, hstring, hbefore, ⟨rfl, hlen⟩, rfl⟩, hr⟩ :=
        (hfound _).mp rfl
      obtain ⟨behind, _, text, hbehind, ⟨rfl, hvalue, hallowed⟩, hmay, hs', hr₁⟩ :=
        (valueMember_reads codes).sound hread
      have hlen : codes.length ≤ 255 := by
        rw [List.nil_append, List.length_map] at hlen
        omega
      exact ⟨w, (codes, text), _, hw,
        ⟨⟨string, before, behind, hstring, hbefore, hbehind, hvalue, rfl⟩, hlen, hallowed⟩, hmay, hs',
        by rw [hr, show r₁ = _ from hr₁]; simp⟩
  complete {s m w text rest} hw htext hmay hahead := by
    obtain ⟨⟨string, before, behind, hstring, hbefore, hbehind, hvalue, rfl⟩, hlen, hallowed⟩ := htext
    have hkey := (key_finds key_fits
      (w ++ (string ++ (before ++ colon :: (behind ++ m.2)) ++ rest))).eq_some
      (a := (m.1.map stored, behind ++ (m.2 ++ rest)))
      ⟨w, _, hw, ⟨m.1, string, before, hstring, hbefore, ⟨rfl, by simp; omega⟩, rfl⟩, by simp⟩
    rw [member, hkey]
    exact (valueMember_reads m.1).complete hbehind ⟨rfl, hvalue, hallowed⟩ hmay hahead

/-! ## Replies -/

theorem separated_and {α : Type} {E : α → Bytes → Prop} {P : α → Prop} {members : List α}
    {text : Bytes} : Separated (fun a text => E a text ∧ P a) members text ↔
      Separated E members text ∧ ∀ a ∈ members, P a := by
  constructor
  · intro h
    induction h with
    | one hb h ha => exact ⟨.one hb h.1 ha, by simpa using h.2⟩
    | more hb h ha _ ih => exact ⟨.more hb h.1 ha ih.1, by simpa using ⟨h.2, by simpa using ih.2⟩⟩
  · rintro ⟨h, hall⟩
    induction h with
    | one hb h ha => exact .one hb ⟨h, hall _ List.mem_cons_self⟩ ha
    | more hb h ha _ ih =>
      exact .more hb ⟨h, hall _ List.mem_cons_self⟩ ha
        (ih fun a ha => hall a (List.mem_cons_of_mem _ ha))

theorem listed_and {α : Type} {E : α → Bytes → Prop} {P : α → Prop} {members : List α}
    {text : Bytes} : Listed (fun a text => E a text ∧ P a) members text ↔
      Listed E members text ∧ ∀ a ∈ members, P a := by
  rw [Listed, Listed, separated_and]
  constructor
  · rintro (⟨rfl, h⟩ | ⟨h, hall⟩)
    · exact ⟨.inl ⟨rfl, h⟩, by simp⟩
    · exact ⟨.inr h, hall⟩
  · rintro ⟨h | h, hall⟩
    · exact .inl h
    · exact .inr ⟨h, hall⟩

/-- How often a key is there. -/
def keyCount (codes : List Nat) (members : List (List Nat × Bytes)) : Nat :=
  (members.map Prod.fst).count codes

theorem keyCount_cons (codes : List Nat) (m : List Nat × Bytes) (members : List (List Nat × Bytes)) :
    keyCount codes (m :: members) = keyCount codes members + if m.1 = codes then 1 else 0 := by
  simp [keyCount, List.count_cons]

theorem afterMember_debug {s : ParseState} {m : List Nat × Bytes} (h : m.1 = debugKey) :
    (afterMember s m).seenDebug = true ∧ (afterMember s m).seenSignature = s.seenSignature ∧
      (afterMember s m).parsed.debug = (s.parsed.debug || m.2 == ascii "true") := by
  simp [afterMember, afterValue, h]

theorem afterMember_signature {s : ParseState} {m : List Nat × Bytes} (h : m.1 = signatureKey) :
    (afterMember s m).seenDebug = s.seenDebug ∧ (afterMember s m).seenSignature = true ∧
      (afterMember s m).parsed.debug = s.parsed.debug := by
  simp [afterMember, afterValue, h, signatureKey_ne]

theorem afterMember_skipped {s : ParseState} {m : List Nat × Bytes} (hdebug : m.1 ≠ debugKey)
    (hsignature : m.1 ≠ signatureKey) : afterMember s m = s := by
  simp [afterMember, afterValue, hdebug, hsignature]

/-- The members may follow each other when no known key comes twice. -/
theorem mayMake_iff (members : List (List Nat × Bytes)) (s : ParseState) :
    MayMake afterMember mayMember s members ↔
      keyCount debugKey members + s.seenDebug.toNat ≤ 1 ∧
        keyCount signatureKey members + s.seenSignature.toNat ≤ 1 := by
  induction members generalizing s with
  | nil => simp [MayMake, keyCount, Bool.toNat_le]
  | cons m members ih =>
    rw [MayMake, ih, keyCount_cons, keyCount_cons, mayMember, mayValue]
    by_cases hdebug : m.1 = debugKey
    · obtain ⟨hd, hs, _⟩ := afterMember_debug (s := s) hdebug
      rw [hd, hs, hdebug, if_pos rfl, if_neg (Ne.symm signatureKey_ne)]
      cases s.seenDebug <;> simp [Ne.symm signatureKey_ne]
    · by_cases hsignature : m.1 = signatureKey
      · obtain ⟨hd, hs, _⟩ := afterMember_signature (s := s) hsignature
        rw [hd, hs, hsignature, if_pos rfl, if_neg signatureKey_ne]
        cases s.seenSignature <;> simp [signatureKey_ne]
      · simp [afterMember_skipped hdebug hsignature, hdebug, hsignature]

/-- Debugging is asked for by a `DEBUG` member that is true. -/
theorem debug_foldl (members : List (List Nat × Bytes)) (s : ParseState) :
    (members.foldl afterMember s).parsed.debug = true ↔
      s.parsed.debug = true ∨ (debugKey, ascii "true") ∈ members := by
  induction members generalizing s with
  | nil => simp
  | cons m members ih =>
    rw [List.foldl_cons, ih, List.mem_cons]
    by_cases hdebug : m.1 = debugKey
    · rw [(afterMember_debug hdebug).2.2, Bool.or_eq_true, beq_iff_eq, Prod.ext_iff, hdebug]
      simp only [true_and, eq_comm (a := ascii "true"), or_assoc]
    · have hne : (debugKey, ascii "true") ≠ m := fun h => hdebug (congrArg Prod.fst h).symm
      have hsame : (afterMember s m).parsed.debug = s.parsed.debug := by
        by_cases hsignature : m.1 = signatureKey
        · exact (afterMember_signature hsignature).2.2
        · rw [afterMember_skipped hdebug hsignature]
      simp [hsame, hne]

/-- A JSON object, with white space around it. -/
def JsonObject (levels : Nat) (members : List (List Nat × Bytes)) (json : Bytes) : Prop :=
  ∃ before text after, Blank before ∧ Blank after ∧
    ObjectText (fun _ => ValueText levels) members text ∧ json = before ++ (text ++ after)

/-- The members of a reply. -/
structure AllowedMembers (members : List (List Nat × Bytes)) : Prop where
  allowed : ∀ m ∈ members, Allowed m
  oneDebug : keyCount debugKey members ≤ 1
  oneSignature : keyCount signatureKey members ≤ 1

def initial : ParseState := ⟨zeroed, false, false⟩

theorem mayMake_initial (members : List (List Nat × Bytes)) :
    MayMake afterMember mayMember initial members ↔
      keyCount debugKey members ≤ 1 ∧ keyCount signatureKey members ≤ 1 := mayMake_iff members initial

theorem members_finds (r : Bytes) : Finds (members r) fun found =>
    ∃ ms inner, Listed ReplyMember ms inner ∧ MayMake afterMember mayMember initial ms ∧
      found.1 = ms.foldl afterMember initial ∧ r = inner ++ closeBrace :: found.2 := by
  have hhead : ∀ m text, ReplyMember m text →
      ∃ c tail, text = c :: tail ∧ isSpace c = false ∧ c ≠ closeBrace := by
    intro m text h
    obtain ⟨tail, htail⟩ := memberText_head h.1
    exact ⟨quote, tail, htail, rfl, by decide⟩
  obtain ⟨y, hy⟩ := items_total closeBrace member_reads initial r
  refine ⟨y, hy, fun ⟨s, rest⟩ => ?_⟩
  constructor
  · rintro rfl
    exact items_sound member_reads hy
  · rintro ⟨ms, inner, hlisted, hmay, hs, hr⟩
    have hread := items_complete rest closeBrace member_reads rfl rfl (by decide) hhead hlisted hmay
    rw [← show r = inner ++ closeBrace :: rest from hr, hy] at hread
    rw [Except.ok.inj hread, ← show s = _ from hs]

theorem space_isEmpty_iff (r : Bytes) : (space r).isEmpty = true ↔ Blank r := by
  rw [List.isEmpty_iff, space, List.dropWhile_eq_nil_iff]
  rfl

/-- The object of a reply, behind the white space in front of it. -/
def ObjectAt (r : Bytes) (out : TelemetryResponse) : Prop :=
  ∃ ms inner behind, Listed ReplyMember ms inner ∧ MayMake afterMember mayMember initial ms ∧
    Blank behind ∧ out = (ms.foldl afterMember initial).parsed ∧
    r = openBrace :: (inner ++ closeBrace :: behind)

theorem objectAt_iff (json : Bytes) (out : TelemetryResponse) : ObjectAt (space json) out ↔
    ∃ ms, JsonObject 16 ms json ∧ AllowedMembers ms ∧ out = (ms.foldl afterMember initial).parsed := by
  constructor
  · rintro ⟨ms, inner, behind, hlisted, hmay, hbehind, hout, hr⟩
    obtain ⟨w, hw, hjson, _⟩ := space_split json
    obtain ⟨hlisted, hallowed⟩ := listed_and.mp hlisted
    obtain ⟨hdebug, hsignature⟩ := (mayMake_initial ms).mp hmay
    exact ⟨ms, ⟨w, _, behind, hw, hbehind, ⟨inner, hlisted, rfl⟩, by rw [hjson, hr]; simp⟩,
      ⟨hallowed, hdebug, hsignature⟩, hout⟩
  · rintro ⟨ms, ⟨w, _, behind, hw, hbehind, ⟨inner, hlisted, rfl⟩, rfl⟩, ⟨hallowed, hdebug, hsignature⟩, hout⟩
    refine ⟨ms, inner, behind, listed_and.mpr ⟨hlisted, hallowed⟩,
      (mayMake_initial ms).mpr ⟨hdebug, hsignature⟩, hbehind, hout, ?_⟩
    rw [space_append hw]
    exact (space_head rfl _).trans (by simp)

/-- What is parsed of a body. -/
theorem parseResponse_finds (json : Bytes) : Finds (parseResponse json) fun out =>
    json.length ≤ tcResponseMax ∧ (Blank json ∧ out = zeroed ∨
      ∃ ms, JsonObject 16 ms json ∧ AllowedMembers ms ∧ out = (ms.foldl afterMember initial).parsed) := by
  unfold parseResponse
  split
  · rename_i hlen
    exact finds_none fun out h => absurd h.1 (Nat.not_le.mpr hlen)
  rename_i hlen
  simp only [Nat.not_lt.mp hlen, true_and, ← objectAt_iff]
  split
  · rename_i hempty
    apply finds_some
    intro out
    constructor
    · exact fun h => .inl ⟨(space_isEmpty_iff json).mp hempty, h.symm⟩
    · rintro (⟨_, h⟩ | ⟨_, _, _, _, _, _, _, hr⟩)
      · exact h.symm
      · rw [hr] at hempty
        cases hempty
  rename_i hempty
  have hblank : ¬ Blank json := fun h => hempty ((space_isEmpty_iff json).mpr h)
  simp only [hblank, false_and, false_or]
  rcases take_cases (space json) openBrace with ⟨rest, hspace, htake⟩ | ⟨hhead, htake⟩
  · rw [space_space] at hspace
    rw [htake, hspace, ok_bind]
    apply ((members_finds rest).then_finds (M := fun found out => Blank found.2 ∧ out = found.1.parsed)
      fun found _ => ?_).congr
    · intro out
      constructor
      · rintro ⟨⟨_, behind⟩, ⟨ms, inner, hlisted, hmay, rfl, hr⟩, hbehind, hout⟩
        exact ⟨ms, inner, behind, hlisted, hmay, hbehind, hout, by rw [hr]⟩
      · rintro ⟨ms, inner, behind, hlisted, hmay, hbehind, hout, hr⟩
        exact ⟨(_, behind), ⟨ms, inner, hlisted, hmay, rfl, (List.cons.inj hr).2⟩, hbehind, hout⟩
    · split
      · rename_i hbehind
        have hbehind := (space_isEmpty_iff _).mp hbehind
        exact finds_some fun out => ⟨fun h => ⟨hbehind, h.symm⟩, fun h => h.2.symm⟩
      · rename_i hbehind
        exact finds_none fun out h => hbehind ((space_isEmpty_iff _).mpr h.1)
  · rw [htake, ok_bind]
    apply finds_none
    rintro out ⟨_, _, _, _, _, _, _, hr⟩
    rw [space_space, hr] at hhead
    exact hhead rfl

/-- A reply is accepted when it is blank or an object with the members that are allowed; it asks for
debugging when its `DEBUG` member is true, and what is rejected leaves nothing. -/
theorem reply_accepted_iff (json : Bytes) : ∃ ret out, telemetryResponseParse json = .ok (ret, out) ∧
    (ret = 0 ↔ json.length ≤ tcResponseMax ∧
      (Blank json ∨ ∃ ms, JsonObject 16 ms json ∧ AllowedMembers ms)) ∧
    (out.debug = true ↔ json.length ≤ tcResponseMax ∧
      ∃ ms, JsonObject 16 ms json ∧ AllowedMembers ms ∧ (debugKey, ascii "true") ∈ ms) ∧
    (ret ≠ 0 → out = zeroed) := by
  obtain ⟨y, hy, hfound⟩ := parseResponse_finds json
  -- what is found for a body that is accepted
  have hobject : ∀ ms, json.length ≤ tcResponseMax → JsonObject 16 ms json → AllowedMembers ms →
      y = some (ms.foldl afterMember initial).parsed :=
    fun ms hlen hjson hms => (hfound _).mpr ⟨hlen, .inr ⟨ms, hjson, hms, rfl⟩⟩
  have hasks : ∀ ms : List (List Nat × Bytes), (ms.foldl afterMember initial).parsed.debug = true ↔
      (debugKey, ascii "true") ∈ ms := fun ms => (debug_foldl ms initial).trans (by simp [initial, zeroed])
  cases y with
  | none =>
    refine ⟨-1, zeroed, by rw [telemetryResponseParse, hy]; rfl, ⟨by simp, ?_⟩, ⟨by simp [zeroed], ?_⟩,
      fun _ => rfl⟩
    · rintro ⟨hlen, hblank | ⟨ms, hjson, hms⟩⟩
      · cases (hfound zeroed).mpr ⟨hlen, .inl ⟨hblank, rfl⟩⟩
      · cases hobject ms hlen hjson hms
    · rintro ⟨hlen, ms, hjson, hms, _⟩
      cases hobject ms hlen hjson hms
  | some out =>
    obtain ⟨hlen, hout⟩ := (hfound out).mp rfl
    refine ⟨0, out, by rw [telemetryResponseParse, hy]; rfl, ⟨fun _ => ⟨hlen, ?_⟩, fun _ => rfl⟩,
      ⟨fun hdebug => ⟨hlen, ?_⟩, ?_⟩, fun h => absurd rfl h⟩
    · rcases hout with ⟨hblank, _⟩ | ⟨ms, hjson, hms, _⟩
      · exact .inl hblank
      · exact .inr ⟨ms, hjson, hms⟩
    · rcases hout with ⟨_, rfl⟩ | ⟨ms, hjson, hms, rfl⟩
      · cases hdebug
      · exact ⟨ms, hjson, hms, (hasks ms).mp hdebug⟩
    · rintro ⟨_, ms, hjson, hms, hmem⟩
      rw [Option.some.inj (hobject ms hlen hjson hms)]
      exact (hasks ms).mpr hmem

/-- A character that is not escaped. -/
def Plain (b : UInt8) : Prop := 0x20 ≤ b.toNat ∧ b.toNat < 0x80 ∧ b.toNat ≠ 0x22 ∧ b.toNat ≠ 0x5c

theorem stringBody_plain {s : Bytes} (h : ∀ b ∈ s, Plain b) : StringBody (s.map UInt8.toNat) s := by
  induction s with
  | nil => exact .nil
  | cons b s ih =>
    obtain ⟨hspace, hascii, hquote, hbackslash⟩ := h b List.mem_cons_self
    have hdecodes : Decodes b.toNat [b] := (decodes_cons_ascii hascii).mpr ⟨rfl, rfl⟩
    obtain ⟨c, hc, htext⟩ := decodes_iff.mp hdecodes
    have hchar : StringChar b.toNat [b] := by
      rw [← hc] at hspace hquote hbackslash ⊢
      rw [← htext]
      exact .inl (.plain c hspace hquote hbackslash)
    exact .cons hchar (ih fun b hb => h b (List.mem_cons_of_mem _ hb))

/-- The reply of `DEBUG` with a number. -/
def integerDebug : Bytes := ascii "\x7b\"DEBUG\":1\x7d"

theorem integerDebug_object : JsonObject 16 [(debugKey, [0x31])] integerDebug := by
  have hkey : StringText debugKey (quote :: (ascii "DEBUG" ++ [quote])) := by
    refine ⟨_, stringBody_plain ?_, rfl⟩
    unfold Plain
    rw [ascii_debug]
    decide +kernel
  have hnumber : NumberText [0x31] :=
    ⟨[], [0x31], [], [], .inl rfl, .inr ⟨⟨by simp, by decide +kernel⟩, by decide⟩, .inl rfl, .inl rfl, rfl⟩
  have hmember : MemberText (fun _ => ValueText 16) (debugKey, [0x31]) _ :=
    ⟨_, [], [], hkey, blank_nil, blank_nil, .inr (.inr (.inr (.inr hnumber))), rfl⟩
  refine ⟨[], _, [], blank_nil, blank_nil, ⟨_, .inr (.one blank_nil hmember blank_nil), rfl⟩, ?_⟩
  decide +kernel

/-- It is a JSON object of two levels with one short key, and is rejected all the same. -/
theorem integerDebug_rejected : integerDebug.length ≤ tcResponseMax ∧
    JsonObject 16 [(debugKey, [0x31])] integerDebug ∧
    telemetryResponseParse integerDebug = .ok (-1, zeroed) :=
  ⟨by decide +kernel, integerDebug_object, by decide +kernel⟩

end TimeCapsule.Telemetry
