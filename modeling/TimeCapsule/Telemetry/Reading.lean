import TimeCapsule.Telemetry.Response

/-!
# Strings and numbers

What the reader makes of strings and numbers: exactly what the grammar of JSON has at the front of the
rest, found without a look outside of it.
-/

namespace TimeCapsule.Telemetry

open Lib Lib.JsonText

variable {r rest w : Bytes} {c : UInt8} {v : Nat}

/-! ## White space -/

@[simp] theorem peek_cons : peek (c :: r) = .ok c := rfl

@[simp] theorem advance_cons : advance (c :: r) = .ok r := rfl

@[simp] theorem pop_cons : pop (c :: r) = .ok (c, r) := rfl

theorem blank_nil : Blank [] := fun _ h => absurd h List.not_mem_nil

theorem space_append (hw : Blank w) : space (w ++ r) = space r :=
  List.dropWhile_append_of_pos hw

/-- Nothing is skipped in front of a byte that is no white space. -/
theorem space_of_head (h : ∀ c, r.head? = some c → isSpace c = false) : space r = r := by
  cases r with
  | nil => rfl
  | cons c r => exact List.dropWhile_cons_of_neg (by simpa using h c rfl)

theorem space_split (r : Bytes) :
    ∃ w, Blank w ∧ r = w ++ space r ∧ ∀ c, (space r).head? = some c → isSpace c = false := by
  refine ⟨r.takeWhile isSpace, fun c hc => List.mem_takeWhile_imp hc,
    (List.takeWhile_append_dropWhile).symm, fun c hc => ?_⟩
  have := List.head?_dropWhile_not isSpace r
  rw [space] at hc
  rw [hc] at this
  simpa using this

theorem take_of_cons (h : space r = c :: rest) : take r c = .ok (true, rest) := by
  rw [take, h]
  simp

theorem take_of_head (h : (space r).head? ≠ some c) : take r c = .ok (false, space r) := by
  rw [take]
  cases hr : space r with
  | nil => rfl
  | cons ch rest =>
    rw [hr] at h
    have hne : ch ≠ c := fun heq => h (congrArg some heq)
    simp [hne]

/-- Whether the byte is next, behind white space. -/
theorem take_cases (r : Bytes) (c : UInt8) :
    (∃ rest, space r = c :: rest ∧ take r c = .ok (true, rest)) ∨
      (space r).head? ≠ some c ∧ take r c = .ok (false, space r) := by
  by_cases h : (space r).head? = some c
  · obtain ⟨rest, hrest⟩ := List.head?_eq_some_iff.mp h
    exact .inl ⟨rest, hrest, take_of_cons hrest⟩
  · exact .inr ⟨h, take_of_head h⟩

theorem take_append (hw : Blank w) (hc : isSpace c = false) : take (w ++ c :: r) c = .ok (true, r) := by
  apply take_of_cons
  rw [space_append hw, space_of_head]
  intro ch hch
  rwa [← Option.some.inj hch]

/-! ## Escapes -/

theorem hexDigit_eq_some : hexDigit c = some v ↔ HexDigit v c := by
  unfold hexDigit HexDigit
  simp only [UInt8.le_iff_toNat_le, UInt8.reduceToNat]
  split_ifs <;> simp only [Option.some.injEq, false_iff] <;> omega

theorem hexDigit_lt {d : Nat} (h : HexDigit d c) : d < 16 := by
  unfold HexDigit at h
  omega

theorem shiftLeft_or {n d : Nat} (k : Nat) (hd : d < 2 ^ k) : n <<< k ||| d = n * 2 ^ k + d := by
  rw [Nat.shiftLeft_eq, Nat.mul_comm, ← Nat.two_pow_add_eq_or_of_lt hd]

theorem hexLoop_finds (count out : Nat) (r : Bytes) :
    Finds (hexLoop count out r) (Front (HexDigits count out) r) := by
  induction count generalizing out r with
  | zero =>
    apply finds_some
    rintro ⟨v, rest⟩
    constructor
    · rintro ⟨⟩
      exact ⟨[], .nil out, rfl⟩
    · rintro ⟨_, h, rfl⟩
      cases h
      rfl
  | succ count ih =>
    cases r with
    | nil =>
      apply finds_none
      rintro ⟨v, rest⟩ ⟨_, h, hr⟩
      cases h
      cases hr
    | cons c r =>
      have hnext : hexLoop (count + 1) out (c :: r) =
          (hexDigit c).elim (.ok none) fun n => hexLoop count (out <<< 4 ||| n) r := rfl
      rw [hnext]
      cases hdigit : hexDigit c with
      | none =>
        apply finds_none
        rintro ⟨v, rest⟩ ⟨_, h, hr⟩
        cases h with
        | cons hd h =>
          cases hr
          rw [hexDigit_eq_some.mpr hd] at hdigit
          cases hdigit
      | some d =>
        have hd := hexDigit_eq_some.mp hdigit
        have hout : out <<< 4 ||| d = out * 16 + d := shiftLeft_or 4 (hexDigit_lt hd)
        show Finds (hexLoop count (out <<< 4 ||| d) r) _
        rw [hout]
        apply (ih (out * 16 + d) r).congr
        rintro ⟨v, rest⟩
        constructor
        · rintro ⟨text, h, hr⟩
          exact ⟨c :: text, .cons hd h, congrArg (c :: ·) hr⟩
        · rintro ⟨_, h, hr⟩
          cases h with
          | cons hd' h =>
            cases hr
            have := hdigit.symm.trans (hexDigit_eq_some.mpr hd')
            exact ⟨_, Option.some.inj this ▸ h, rfl⟩

/-- The second half of a surrogate pair. -/
def LowText (v : Nat) (text : Bytes) : Prop :=
  v = 0x10000 ∧ ∃ lo low, HexDigits 4 0 lo low ∧ (0xdc00 ≤ lo ∧ lo ≤ 0xdfff) ∧
    text = backslash :: 0x75 :: low

theorem lowSurrogate_finds (r : Bytes) : Finds (lowSurrogate r) (Front LowText r) := by
  rcases r with _ | ⟨a, _ | ⟨b, r⟩⟩
  · apply finds_none
    rintro p ⟨_, ⟨_, lo, low, _, _, rfl⟩, hr⟩
    cases hr
  · apply finds_none
    rintro p ⟨_, ⟨_, lo, low, _, _, rfl⟩, hr⟩
    cases hr
  · have hnext : lowSurrogate (a :: b :: r) =
        if a ≠ backslash ∨ b ≠ 0x75 then .ok none
        else thenRead (hex4 r) fun low =>
          if low.1 < 0xdc00 ∨ 0xdfff < low.1 then .ok none else .ok (some (0x10000, low.2)) := rfl
    rw [hnext]
    split
    · rename_i hne
      apply finds_none
      rintro p ⟨_, ⟨_, lo, low, _, _, rfl⟩, hr⟩
      cases hr
      simp at hne
    · rename_i heq
      rw [not_or, not_not, not_not] at heq
      obtain ⟨rfl, rfl⟩ := heq
      have hread := @Finds.then_finds _ _ _ _ (fun low => if low.1 < 0xdc00 ∨ 0xdfff < low.1 then .ok none
          else .ok (some (0x10000, low.2)))
        (fun low p => (0xdc00 ≤ low.1 ∧ low.1 ≤ 0xdfff) ∧ p = (0x10000, low.2))
        (hexLoop_finds 4 0 r) (by
          intro low _
          split
          · exact finds_none fun p hp => by omega
          · refine finds_some fun p => ⟨fun h => ⟨by omega, h.symm⟩, fun h => h.2.symm⟩)
      apply hread.congr
      rintro ⟨v, rest⟩
      constructor
      · rintro ⟨⟨lo, _⟩, ⟨low, hlow, hr⟩, hrange, hp⟩
        cases hp
        exact ⟨backslash :: 0x75 :: low, ⟨rfl, lo, low, hlow, hrange, rfl⟩, by rw [hr]; rfl⟩
      · rintro ⟨_, ⟨hv, lo, low, hlow, hrange, rfl⟩, hr⟩
        cases hr
        exact ⟨(lo, rest), ⟨low, hlow, rfl⟩, hrange, Prod.ext hv rfl⟩

/-- What stands behind a backslash and a `u`. -/
def UnicodeText (v : Nat) (text : Bytes) : Prop :=
  HexDigits 4 0 v text ∧ (v < 0xd800 ∨ 0xdfff < v) ∨
    ∃ hi high low, HexDigits 4 0 hi high ∧ (0xd800 ≤ hi ∧ hi ≤ 0xdbff) ∧ LowText v low ∧
      text = high ++ low

theorem unicodeEscape_finds (r : Bytes) : Finds (unicodeEscape r) (Front UnicodeText r) := by
  have hread := (hexLoop_finds 4 0 r).front_then
    (H := fun hi v text => text = [] ∧ v = hi ∧ (hi < 0xd800 ∨ 0xdfff < hi) ∨
      (0xd800 ≤ hi ∧ hi ≤ 0xdbff) ∧ LowText v text)
    (f := fun c => if 0xd800 ≤ c.1 ∧ c.1 ≤ 0xdbff then lowSurrogate c.2
      else if 0xdc00 ≤ c.1 ∧ c.1 ≤ 0xdfff then .ok none else .ok (some c)) (by
    intro hi rest
    dsimp only
    split
    · rename_i hhi
      apply (lowSurrogate_finds rest).front_congr
      exact fun v text => ⟨fun h => .inr ⟨hhi, h⟩, fun h => (h.resolve_left fun h => by omega).2⟩
    · rename_i hhi
      split
      · apply finds_none
        rintro p ⟨text, ⟨_, _, h⟩ | ⟨h, _⟩, _⟩ <;> omega
      · apply finds_some
        rintro ⟨v, rest'⟩
        constructor
        · rintro ⟨⟩
          exact ⟨[], .inl ⟨rfl, rfl, by omega⟩, rfl⟩
        · rintro ⟨_, ⟨rfl, hv, _⟩ | ⟨h, _⟩, hr⟩
          · exact Prod.ext hv.symm hr
          · omega)
  apply hread.front_congr
  intro v text
  constructor
  · rintro ⟨hi, high, low, hhigh, ⟨rfl, rfl, hrange⟩ | ⟨hrange, hlow⟩, rfl⟩
    · exact .inl ⟨by rwa [List.append_nil], hrange⟩
    · exact .inr ⟨hi, high, low, hhigh, hrange, hlow, rfl⟩
  · rintro (⟨h, hrange⟩ | ⟨hi, high, low, hhigh, hrange, hlow, rfl⟩)
    · exact ⟨v, text, [], h, .inl ⟨rfl, rfl, hrange⟩, (List.append_nil _).symm⟩
    · exact ⟨hi, high, low, hhigh, .inr ⟨hrange, hlow⟩, rfl⟩

/-- What stands behind a backslash. -/
def EscapeText (v : Nat) (text : Bytes) : Prop :=
  (∃ c, (c, v) ∈ escapes ∧ text = [c]) ∨ ∃ unicode, UnicodeText v unicode ∧ text = 0x75 :: unicode

/-- The code point of a simple escape. -/
def simpleEscape (c : UInt8) : Option Nat := escapes.lookup c

theorem simpleEscape_eq_some : simpleEscape c = some v ↔ (c, v) ∈ escapes := by
  constructor
  · intro h
    obtain ⟨before, after, hescapes, _⟩ := List.lookup_eq_some_iff.mp h
    rw [hescapes]
    simp
  · intro h
    simp only [escapes, List.mem_cons, Prod.mk.injEq, List.not_mem_nil, or_false] at h
    rcases h with ⟨rfl, rfl⟩ | ⟨rfl, rfl⟩ | ⟨rfl, rfl⟩ | ⟨rfl, rfl⟩ | ⟨rfl, rfl⟩ | ⟨rfl, rfl⟩ |
      ⟨rfl, rfl⟩ | ⟨rfl, rfl⟩ <;> rfl

theorem escape_cons (c : UInt8) (r : Bytes) : escape (c :: r) =
    if c = 0x75 then unicodeEscape r
    else (simpleEscape c).elim (.ok none) fun v => .ok (some (v, r)) := by
  by_cases hu : c = 0x75
  · subst hu
    rfl
  rw [if_neg hu]
  show (if c = quote ∨ c = backslash ∨ c = 0x2f then .ok (some (c.toNat, r)) else _ :
    Checked (Option (Nat × Reader))) = _
  rcases hc : simpleEscape c with _ | v
  · rw [if_neg (by rintro (rfl | rfl | rfl) <;> cases hc), if_neg (by rintro rfl; cases hc),
      if_neg (by rintro rfl; cases hc), if_neg (by rintro rfl; cases hc),
      if_neg (by rintro rfl; cases hc), if_neg (by rintro rfl; cases hc), if_neg hu]
    rfl
  · have hmem := simpleEscape_eq_some.mp hc
    simp only [escapes, List.mem_cons, Prod.mk.injEq, List.not_mem_nil, or_false] at hmem
    rcases hmem with ⟨rfl, rfl⟩ | ⟨rfl, rfl⟩ | ⟨rfl, rfl⟩ | ⟨rfl, rfl⟩ | ⟨rfl, rfl⟩ | ⟨rfl, rfl⟩ |
      ⟨rfl, rfl⟩ | ⟨rfl, rfl⟩ <;> rfl

theorem escape_finds (r : Bytes) : Finds (escape r) (Front EscapeText r) := by
  cases r with
  | nil =>
    apply finds_none
    rintro p ⟨_, ⟨c, _, rfl⟩ | ⟨unicode, _, rfl⟩, hr⟩ <;> cases hr
  | cons c r =>
    rw [escape_cons]
    split
    · rename_i hu
      subst hu
      apply (unicodeEscape_finds r).congr
      rintro ⟨v, rest⟩
      constructor
      · rintro ⟨text, h, rfl⟩
        exact ⟨0x75 :: text, .inr ⟨text, h, rfl⟩, rfl⟩
      · rintro ⟨_, ⟨c, hc, rfl⟩ | ⟨unicode, h, rfl⟩, hr⟩
        · cases hr
          have hnone : simpleEscape 0x75 = none := rfl
          rw [simpleEscape_eq_some.mpr hc] at hnone
          cases hnone
        · exact ⟨unicode, h, (List.cons.inj hr).2⟩
    · rename_i hu
      cases hsimple : simpleEscape c with
      | none =>
        apply finds_none
        rintro p ⟨_, ⟨c', hc, rfl⟩ | ⟨unicode, _, rfl⟩, hr⟩
        · cases hr
          rw [simpleEscape_eq_some.mpr hc] at hsimple
          cases hsimple
        · exact hu (List.cons.inj hr).1
      | some v =>
        apply finds_some
        rintro ⟨v', rest⟩
        constructor
        · rintro ⟨⟩
          exact ⟨[c], .inl ⟨c, simpleEscape_eq_some.mp hsimple, rfl⟩, rfl⟩
        · rintro ⟨_, ⟨c', hc, rfl⟩ | ⟨unicode, _, rfl⟩, hr⟩
          · cases hr
            have := hsimple.symm.trans (simpleEscape_eq_some.mpr hc)
            exact Prod.ext (Option.some.inj this) rfl
          · exact absurd (List.cons.inj hr).1 hu

/-! ## UTF-8 -/

/-- A byte behind the first one of a sequence. -/
def IsContinuation (c : UInt8) : Prop := 0x80 ≤ c.toNat ∧ c.toNat < 0xc0

inductive Continuations : (count cp : Nat) → Nat → Bytes → Prop
  | nil (cp : Nat) : Continuations 0 cp cp []
  | cons {count cp v : Nat} {c : UInt8} {text : Bytes} (hc : IsContinuation c)
      (h : Continuations count (cp * 64 + c.toNat % 64) v text) : Continuations (count + 1) cp v (c :: text)

theorem continuations_finds (count cp : Nat) (r : Bytes) :
    Finds (continuations count cp r) (Front (Continuations count cp) r) := by
  induction count generalizing cp r with
  | zero =>
    apply finds_some
    rintro ⟨v, rest⟩
    constructor
    · rintro ⟨⟩
      exact ⟨[], .nil cp, rfl⟩
    · rintro ⟨_, h, rfl⟩
      cases h
      rfl
  | succ count ih =>
    cases r with
    | nil =>
      apply finds_none
      rintro ⟨v, rest⟩ ⟨_, h, hr⟩
      cases h
      cases hr
    | cons c r =>
      have hnext : continuations (count + 1) cp (c :: r) =
          if c &&& 0xc0 ≠ 0x80 then .ok none
          else continuations count (cp <<< 6 ||| (c &&& 63).toNat) r := rfl
      have hbits : cp <<< 6 ||| (c &&& 63).toNat = cp * 64 + c.toNat % 64 := by
        have hmask : (c &&& 63).toNat = c.toNat % 64 := toNat_and_3f c
        rw [hmask]
        exact shiftLeft_or 6 (Nat.mod_lt _ (by decide))
      rw [hnext, hbits]
      split
      · rename_i hc
        rw [ne_eq, continuation_iff] at hc
        apply finds_none
        rintro ⟨v, rest⟩ ⟨_, h, hr⟩
        cases h with
        | cons hc' h =>
          cases hr
          exact hc hc'
      · rename_i hc
        rw [ne_eq, not_not, continuation_iff] at hc
        apply (ih _ r).congr
        rintro ⟨v, rest⟩
        constructor
        · rintro ⟨text, h, rfl⟩
          exact ⟨c :: text, .cons hc h, rfl⟩
        · rintro ⟨_, h, hr⟩
          cases h with
          | cons _ h =>
            cases hr
            exact ⟨_, h, rfl⟩

theorem utf8Sequence_finds (count cp least : Nat) (r : Bytes) :
    Finds (utf8Sequence count cp least r)
      (Front (fun v text => Continuations count cp v text ∧ least ≤ v ∧ v ≤ 0x10ffff ∧
        (v < 0xd800 ∨ 0xdfff < v)) r) := by
  have hread := (continuations_finds count cp r).then_finds
    (f := fun got => if got.1 < least ∨ 0x10ffff < got.1 ∨ 0xd800 ≤ got.1 ∧ got.1 ≤ 0xdfff then .ok none
      else .ok (some got))
    (M := fun got p => p = got ∧ least ≤ got.1 ∧ got.1 ≤ 0x10ffff ∧
      (got.1 < 0xd800 ∨ 0xdfff < got.1)) (by
    intro got _
    split
    · exact finds_none fun p hp => by omega
    · exact finds_some fun p => ⟨fun h => ⟨h.symm, by omega⟩, fun h => h.1.symm⟩)
  apply hread.congr
  rintro ⟨v, rest⟩
  constructor
  · rintro ⟨_, ⟨text, h, hr⟩, rfl, hrange⟩
    exact ⟨text, ⟨h, hrange⟩, hr⟩
  · rintro ⟨text, ⟨h, hrange⟩, hr⟩
    exact ⟨(v, rest), ⟨text, h, hr⟩, rfl, hrange⟩

/-- A sequence behind a first byte that is not ASCII. -/
theorem utf8_finds (hc : 0x80 ≤ c.toNat) (r : Bytes) :
    Finds (utf8 c r) (Front (fun v text => Decodes v (c :: text)) r) := by
  have h31 : (c &&& 31).toNat = c.toNat % 32 := toNat_and_1f c
  have h15 : (c &&& 15).toNat = c.toNat % 16 := toNat_and_0f c
  have h7 : (c &&& 7).toNat = c.toNat % 8 := toNat_and_07 c
  unfold utf8
  rw [h31, h15, h7]
  simp only [UInt8.le_iff_toNat_le, UInt8.reduceToNat]
  split
  · apply (utf8Sequence_finds 1 _ _ r).front_congr
    intro v text
    constructor
    · rintro ⟨_ | ⟨hb, _ | _⟩, hrange⟩
      unfold IsContinuation at hb
      simp only [Decodes, and_true]
      omega
    · intro h
      rcases text with _ | ⟨b1, _ | ⟨b2, _ | ⟨b3, _ | ⟨b4, text⟩⟩⟩⟩ <;> simp only [Decodes] at h
      case cons.nil =>
        obtain ⟨h0, h0', h1, h1', rfl⟩ := h
        exact ⟨.cons ⟨h1, h1'⟩ (.nil _), by omega⟩
      all_goals omega
  split
  · apply (utf8Sequence_finds 2 _ _ r).front_congr
    intro v text
    constructor
    · rintro ⟨_ | ⟨hb, _ | ⟨hb', _ | _⟩⟩, hrange⟩
      unfold IsContinuation at hb hb'
      simp only [Decodes, and_true]
      refine ⟨?_, ?_, ?_, ?_, ?_, ?_, ?_, ?_⟩ <;> omega
    · intro h
      rcases text with _ | ⟨b1, _ | ⟨b2, _ | ⟨b3, _ | ⟨b4, text⟩⟩⟩⟩ <;> simp only [Decodes] at h
      case cons.cons.nil =>
        obtain ⟨h0, h0', h1, h1', h2, h2', hlow, hsurrogate, rfl⟩ := h
        exact ⟨.cons ⟨h1, h1'⟩ (.cons ⟨h2, h2'⟩ (.nil _)), by omega, by omega, by omega⟩
      all_goals omega
  split
  · apply (utf8Sequence_finds 3 _ _ r).front_congr
    intro v text
    constructor
    · rintro ⟨_ | ⟨hb, _ | ⟨hb', _ | ⟨hb'', _ | _⟩⟩⟩, hrange⟩
      unfold IsContinuation at hb hb' hb''
      simp only [Decodes, and_true]
      refine ⟨?_, ?_, ?_, ?_, ?_, ?_, ?_, ?_, ?_, ?_⟩ <;> omega
    · intro h
      rcases text with _ | ⟨b1, _ | ⟨b2, _ | ⟨b3, _ | ⟨b4, text⟩⟩⟩⟩ <;> simp only [Decodes] at h
      case cons.cons.cons.nil =>
        obtain ⟨h0, h0', h1, h1', h2, h2', h3, h3', hlow, hhigh, rfl⟩ := h
        exact ⟨.cons ⟨h1, h1'⟩ (.cons ⟨h2, h2'⟩ (.cons ⟨h3, h3'⟩ (.nil _))), by omega, by omega,
          by omega⟩
      all_goals omega
  · apply finds_none
    rintro p ⟨text, h, -⟩
    rcases text with _ | ⟨b1, _ | ⟨b2, _ | ⟨b3, _ | ⟨b4, text⟩⟩⟩⟩ <;> simp only [Decodes] at h <;> omega

/-! ## Characters -/

/-- A character as the reader takes it: all surrogate pairs become one code point. -/
def CharText (v : Nat) (text : Bytes) : Prop :=
  SingleChar v text ∨ v = 0x10000 ∧ ∃ hi lo, SurrogatePair hi lo text

theorem not_charText_nil : ¬ CharText v [] := by
  rintro (h | ⟨_, hi, lo, high, low, _, _, _, _, h⟩)
  · generalize htext : ([] : Bytes) = text at h
    cases h with
    | plain c => exact String.utf8EncodeChar_ne_nil htext.symm
    | escape h => cases htext
    | unit h => cases htext
  · cases h

/-- A character is an escape, or a sequence for a code point that needs none. -/
theorem charText_cons {text : Bytes} : CharText v (c :: text) ↔
    c = backslash ∧ EscapeText v text ∨
      Decodes v (c :: text) ∧ 0x20 ≤ v ∧ v ≠ 0x22 ∧ v ≠ 0x5c := by
  constructor
  · rintro (h | ⟨rfl, hi, lo, high, low, hhigh, hlow, hhi, hlo, h⟩)
    · generalize htext : c :: text = whole at h
      cases h with
      | plain ch hlow hq hb =>
        exact .inr ⟨decodes_iff.mpr ⟨ch, rfl, rfl⟩, hlow, hq, hb⟩
      | escape h =>
        cases htext
        exact .inl ⟨rfl, .inl ⟨_, h, rfl⟩⟩
      | unit h hv =>
        cases htext
        exact .inl ⟨rfl, .inr ⟨_, .inl ⟨h, hv⟩, rfl⟩⟩
    · cases h
      exact .inl ⟨rfl, .inr ⟨_, .inr ⟨hi, high, _, hhigh, hhi, ⟨rfl, lo, low, hlow, hlo, rfl⟩, rfl⟩, rfl⟩⟩
  · rintro (⟨rfl, ⟨ch, hch, rfl⟩ | ⟨unicode, ⟨h, hv⟩ | ⟨hi, high, _, hhigh, hhi, hlow, rfl⟩, rfl⟩⟩ |
      ⟨h, hlow, hq, hb⟩)
    · exact .inl (.escape hch)
    · exact .inl (.unit h hv)
    · obtain ⟨rfl, lo, low, hlow, hlo, rfl⟩ := hlow
      exact .inr ⟨rfl, hi, lo, high, low, hhigh, hlow, hhi, hlo, rfl⟩
    · obtain ⟨ch, rfl, hch⟩ := decodes_iff.mp h
      rw [← hch]
      exact .inl (.plain ch hlow hq hb)

theorem decodes_cons_cons {b : UInt8} {text : Bytes} (h : Decodes v (c :: b :: text)) :
    0x80 ≤ c.toNat := by
  rcases text with _ | ⟨b2, _ | ⟨b3, _ | ⟨b4, text⟩⟩⟩ <;> simp only [Decodes] at h <;> omega

/-- The first byte tells an ASCII code point. -/
theorem decodes_cons_ascii {text : Bytes} (hc : c.toNat < 0x80) :
    Decodes v (c :: text) ↔ text = [] ∧ v = c.toNat := by
  rcases text with _ | ⟨b, text⟩
  · simp [Decodes, hc]
  · constructor
    · intro h
      have := decodes_cons_cons h
      omega
    · rintro ⟨h, -⟩
      cases h

theorem decodes_cons_large {text : Bytes} (hc : 0x80 ≤ c.toNat) (h : Decodes v (c :: text)) : 0x80 ≤ v := by
  rcases text with _ | ⟨b1, _ | ⟨b2, _ | ⟨b3, _ | ⟨b4, text⟩⟩⟩⟩ <;> simp only [Decodes] at h <;> omega

theorem stringChar_finds (hq : c ≠ quote) (r : Bytes) :
    Finds (stringChar c r) (Front (fun v text => CharText v (c :: text)) r) := by
  have hquote : c.toNat ≠ 0x22 := fun h => hq (UInt8.toNat_inj.mp h)
  have hslash : c = backslash ↔ c.toNat = 0x5c := UInt8.toNat_inj.symm
  have hascii : c.toNat < 0x80 → c ≠ backslash → ∀ v text, CharText v (c :: text) ↔
      (text = [] ∧ v = c.toNat) ∧ 0x20 ≤ c.toNat := by
    intro hc hne v text
    rw [charText_cons, decodes_cons_ascii hc]
    constructor
    · rintro (⟨h, _⟩ | ⟨⟨rfl, rfl⟩, h, _⟩)
      · exact absurd h hne
      · exact ⟨⟨rfl, rfl⟩, h⟩
    · rintro ⟨⟨rfl, rfl⟩, h⟩
      exact .inr ⟨⟨rfl, rfl⟩, h, hquote, fun h => hne (hslash.mpr h)⟩
  unfold stringChar
  simp only [UInt8.lt_iff_toNat_lt, UInt8.le_iff_toNat_le, UInt8.reduceToNat]
  split
  · rename_i hlt
    apply finds_none
    rintro p ⟨text, h, -⟩
    rw [hascii (by omega) (fun h => by rw [hslash] at h; omega)] at h
    omega
  split
  · rename_i hb
    apply (escape_finds r).front_congr
    intro v text
    rw [charText_cons, decodes_cons_ascii (by rw [hslash.mp hb]; decide), hslash.mp hb]
    constructor
    · exact fun h => .inl ⟨hb, h⟩
    · rintro (⟨_, h⟩ | ⟨⟨_, rfl⟩, _, _, h⟩)
      · exact h
      · exact absurd rfl h
  split
  · rename_i hlarge
    apply (utf8_finds hlarge r).front_congr
    intro v text
    rw [charText_cons]
    constructor
    · intro h
      have := decodes_cons_large hlarge h
      exact .inr ⟨h, by omega, by omega, by omega⟩
    · rintro (⟨hb, _⟩ | ⟨h, _⟩)
      · rw [hslash] at hb
        omega
      · exact h
  · rename_i hlow hb hlarge
    apply finds_some
    rintro ⟨v, rest⟩
    simp only [Front, hascii (by omega) hb]
    constructor
    · rintro ⟨⟩
      exact ⟨[], ⟨⟨rfl, rfl⟩, by omega⟩, rfl⟩
    · rintro ⟨_, ⟨⟨rfl, rfl⟩, _⟩, rfl⟩
      rfl

/-! ## Strings -/

theorem stored_of_lt {code : Nat} (h : 127 < code) : stored code = 0x3f := if_pos (.inl h)

/-- The code point of a character, as `out` gets it. -/
theorem CharText.stringChar {text : Bytes} (h : CharText v text) :
    ∃ code, StringChar code text ∧ stored code = stored v := by
  rcases h with h | ⟨rfl, hi, lo, h⟩
  · exact ⟨v, .inl h, rfl⟩
  · refine ⟨_, .inr ⟨hi, lo, h, rfl⟩, ?_⟩
    exact (stored_of_lt (by omega)).trans (stored_of_lt (by omega)).symm

theorem charText_of_stringChar {code : Nat} {text : Bytes} (h : StringChar code text) :
    ∃ v, CharText v text ∧ stored code = stored v := by
  rcases h with h | ⟨hi, lo, h, hcode⟩
  · exact ⟨code, .inl h, rfl⟩
  · refine ⟨0x10000, .inr ⟨rfl, hi, lo, h⟩, ?_⟩
    exact (stored_of_lt (by omega)).trans (stored_of_lt (by omega)).symm

/-- No character begins with a quote. -/
theorem CharText.head {text : Bytes} (h : CharText v text) : ∃ c t, text = c :: t ∧ c ≠ quote := by
  cases text with
  | nil => exact absurd h not_charText_nil
  | cons c t =>
    refine ⟨c, t, rfl, ?_⟩
    rintro rfl
    rcases charText_cons.mp h with ⟨h, _⟩ | ⟨h, _, hq, _⟩
    · cases h
    · exact hq ((decodes_cons_ascii (by decide)).mp h).2

/-- What the array has after some more code points; a null pointer gets nothing. -/
def Stored (cap : Option Nat) (out : Bytes) (codes : List Nat) (out' : Bytes) : Prop :=
  cap.elim (out' = out) fun cap => out' = out ++ codes.map stored ∧ out'.length < cap

/-- There is room for the terminating zero. -/
def Fits (cap : Option Nat) (out : Bytes) : Prop := ∀ n ∈ cap, out.length < n

theorem fits_none (out : Bytes) : Fits none out := fun _ h => absurd h (by simp)

theorem stored_nil {cap : Option Nat} {out out' : Bytes} (h : Fits cap out) :
    Stored cap out [] out' ↔ out' = out := by
  cases cap with
  | none => exact Iff.rfl
  | some n =>
    have hlt := h n rfl
    show out' = out ++ [] ∧ out'.length < n ↔ _
    rw [List.append_nil]
    exact and_iff_left_of_imp fun h => h ▸ hlt

theorem stored_cons {cap : Option Nat} {out out' : Bytes} {code : Nat} {codes : List Nat}
    (h : stored code = stored v) : Stored cap out (code :: codes) out' ↔
      ∃ out₁, store cap out v = some out₁ ∧ Fits cap out₁ ∧ Stored cap out₁ codes out' := by
  cases cap with
  | none =>
    constructor
    · exact fun h => ⟨out, rfl, fits_none out, h⟩
    · rintro ⟨out₁, h, _, hstored⟩
      cases h
      exact hstored
  | some n =>
    show out' = out ++ (stored code :: codes.map stored) ∧ out'.length < n ↔
      ∃ out₁, (if n ≤ out.length + 1 then none else some (out ++ [stored v])) = some out₁ ∧ _ ∧
        out' = out₁ ++ codes.map stored ∧ out'.length < n
    simp only [Option.ite_none_left_eq_some, Option.some.injEq, Fits, Option.mem_some_iff, h]
    constructor
    · rintro ⟨rfl, hlt⟩
      rw [List.length_append, List.length_cons, List.length_map] at hlt
      refine ⟨_, ⟨by omega, rfl⟩, ?_, by simp, by simp; omega⟩
      rintro _ rfl
      simp
      omega
    · rintro ⟨_, ⟨_, rfl⟩, _, rfl, hlt⟩
      exact ⟨by simp, hlt⟩

theorem fits_store {cap : Option Nat} {out out₁ : Bytes} (h : store cap out v = some out₁) :
    Fits cap out₁ := by
  rintro n hn
  cases hn
  obtain ⟨hlt, h⟩ := Option.ite_none_left_eq_some.mp h
  rw [← Option.some.inj h, List.length_append, List.length_singleton]
  omega

/-- The rest of a string, with its closing quote. -/
def BodyText (cap : Option Nat) (out out' : Bytes) (text : Bytes) : Prop :=
  ∃ codes body, StringBody codes body ∧ Stored cap out codes out' ∧ text = body ++ [quote]

theorem stringLoop_finds (cap : Option Nat) (fuel : Nat) (out r : Bytes) (hfuel : r.length ≤ fuel)
    (hfits : Fits cap out) : Finds (stringLoop cap fuel out r) (Front (BodyText cap out) r) := by
  induction fuel generalizing out r with
  | zero =>
    obtain rfl := List.length_eq_zero_iff.mp (Nat.le_zero.mp hfuel)
    apply finds_none
    rintro p ⟨_, ⟨codes, body, _, _, rfl⟩, hr⟩
    simp at hr
  | succ fuel ih =>
    cases r with
    | nil =>
      apply finds_none
      rintro p ⟨_, ⟨codes, body, _, _, rfl⟩, hr⟩
      simp at hr
    | cons c r =>
      have hnext : stringLoop cap (fuel + 1) out (c :: r) =
          if c = quote then .ok (some (out, r))
          else thenRead (stringChar c r) fun c =>
            (store cap out c.1).elim (.ok none) fun out => stringLoop cap fuel out c.2 := rfl
      rw [hnext]
      split
      · rename_i hq
        apply finds_some
        rintro ⟨out', rest⟩
        constructor
        · rintro ⟨⟩
          exact ⟨[quote], ⟨[], [], .nil, (stored_nil hfits).mpr rfl, rfl⟩, by rw [hq]; rfl⟩
        · rintro ⟨_, ⟨codes, body, hbody, hstored, rfl⟩, hr⟩
          cases hbody with
          | nil =>
            cases hr
            exact Prod.ext ((stored_nil hfits).mp hstored).symm rfl
          | cons hchar _ =>
            obtain ⟨v, hchar, _⟩ := charText_of_stringChar hchar
            obtain ⟨c', t, rfl, hne⟩ := hchar.head
            cases hr
            exact absurd hq hne
      · rename_i hq
        have hread := (stringChar_finds hq r).then_finds
          (f := fun c => (store cap out c.1).elim (.ok none) fun out => stringLoop cap fuel out c.2)
          (M := fun p q => ∃ out₁, store cap out p.1 = some out₁ ∧ Fits cap out₁ ∧
            Front (BodyText cap out₁) p.2 q) (by
          rintro ⟨v, rest⟩ ⟨text, hchar, hr⟩
          have hr : r = text ++ rest := hr
          cases hstore : store cap out v with
          | none => exact finds_none fun q ⟨_, h, _⟩ => by cases h
          | some out₁ =>
            have hrest : rest.length ≤ fuel := by
              rw [hr, List.length_cons, List.length_append] at hfuel
              omega
            by_cases hfits₁ : Fits cap out₁
            · apply (ih out₁ rest hrest hfits₁).congr
              intro q
              constructor
              · exact fun h => ⟨out₁, rfl, hfits₁, h⟩
              · rintro ⟨_, h, _, hq⟩
                exact Option.some.inj h ▸ hq
            · exact absurd (fits_store hstore) hfits₁)
        apply hread.congr
        rintro ⟨out', rest⟩
        constructor
        · rintro ⟨⟨v, rest₁⟩, ⟨text, hchar, rfl⟩, out₁, hstore, hfits₁, _, ⟨codes, body, hbody, hstored,
            rfl⟩, rfl⟩
          obtain ⟨code, hcode, hsame⟩ := hchar.stringChar
          exact ⟨c :: text ++ body ++ [quote], ⟨code :: codes, _, .cons hcode hbody,
            (stored_cons hsame).mpr ⟨out₁, hstore, hfits₁, hstored⟩, rfl⟩, by simp⟩
        · rintro ⟨_, ⟨codes, _, hbody, hstored, rfl⟩, hr⟩
          cases hbody with
          | nil => exact absurd (List.cons.inj hr).1 hq
          | @cons code codes text body hcode hbody =>
            obtain ⟨v, hchar, hsame⟩ := charText_of_stringChar hcode
            obtain ⟨out₁, hstore, hfits₁, hstored⟩ := (stored_cons hsame).mp hstored
            obtain ⟨c', t, rfl, hne⟩ := hchar.head
            cases hr
            exact ⟨(v, body ++ [quote] ++ rest), ⟨t, hchar, by simp⟩, out₁, hstore, hfits₁, _,
              ⟨_, _, hbody, hstored, rfl⟩, rfl⟩

/-- Something behind white space, with its text. -/
def Spaced {α : Type} (G : α → Bytes → Prop) (r : Bytes) (found : α × Bytes) : Prop :=
  ∃ w text, Blank w ∧ G found.1 text ∧ r = w ++ (text ++ found.2)

theorem string_finds {cap : Option Nat} (hcap : Fits cap []) (r : Bytes) :
    Finds (string cap r)
      (Spaced (fun out text => ∃ codes, StringText codes text ∧ Stored cap [] codes out) r) := by
  have hquote : isSpace quote = false := rfl
  rcases take_cases r quote with ⟨rest, hspace, htake⟩ | ⟨hhead, htake⟩
  · have hnext : string cap r = stringLoop cap rest.length [] rest := by
      rw [string, htake]
      rfl
    rw [hnext]
    obtain ⟨w, hw, hr, _⟩ := space_split r
    rw [hspace] at hr
    apply (stringLoop_finds cap rest.length [] rest le_rfl hcap).congr
    rintro ⟨out, rest'⟩
    constructor
    · rintro ⟨_, ⟨codes, body, hbody, hstored, rfl⟩, rfl⟩
      exact ⟨w, quote :: (body ++ [quote]), hw, ⟨codes, ⟨body, hbody, rfl⟩, hstored⟩, hr⟩
    · rintro ⟨w', _, hw', ⟨codes, ⟨body, hbody, rfl⟩, hstored⟩, hr'⟩
      have htake' := take_append (r := body ++ [quote] ++ rest') hw' hquote
      rw [show w' ++ quote :: (body ++ [quote] ++ rest') = r from hr'.symm, htake] at htake'
      have hrest := congrArg Prod.snd (Except.ok.inj htake')
      exact ⟨body ++ [quote], ⟨codes, body, hbody, hstored, rfl⟩, hrest⟩
  · have hnext : string cap r = .ok none := by
      rw [string, htake]
      rfl
    rw [hnext]
    apply finds_none
    rintro ⟨out, rest⟩ ⟨w, _, hw, ⟨codes, ⟨body, _, rfl⟩, _⟩, rfl⟩
    have htake' := take_append (r := body ++ [quote] ++ rest) hw hquote
    rw [show w ++ quote :: (body ++ [quote] ++ rest) = _ from rfl] at htake'
    exact absurd (htake.symm.trans htake') (by simp)

/-! ## Numbers -/

/-- The next byte, if there is one, is none of these. -/
def Ahead (p : UInt8 → Bool) (rest : Bytes) : Prop := ∀ c, rest.head? = some c → p c = false

theorem dropWhile_append_eq {p : UInt8 → Bool} {text : Bytes} (h : ∀ c ∈ text, p c = true)
    (hrest : Ahead p rest) : (text ++ rest).dropWhile p = rest := by
  rw [List.dropWhile_append_of_pos h]
  cases rest with
  | nil => rfl
  | cons c rest => exact List.dropWhile_cons_of_neg (by simpa using hrest c rfl)

theorem ahead_dropWhile (p : UInt8 → Bool) (r : Bytes) : Ahead p (r.dropWhile p) := by
  intro c hc
  have := List.head?_dropWhile_not p r
  rw [hc] at this
  simpa using this

/-- What a run of digits leaves. -/
theorem moreDigits_finds (hc : isDigit c = true) (r : Bytes) : Finds (moreDigits (c :: r)) fun rest =>
    ∃ text, Digits text ∧ c :: r = text ++ rest ∧ Ahead isDigit rest := by
  have hnext : moreDigits (c :: r) = .ok (some (r.dropWhile isDigit)) := rfl
  rw [hnext]
  apply finds_some
  intro rest
  constructor
  · rintro rfl
    refine ⟨c :: r.takeWhile isDigit, ⟨by simp, ?_⟩, ?_, ahead_dropWhile _ _⟩
    · rintro b (_ | ⟨_, hb⟩)
      · exact hc
      · exact List.mem_takeWhile_imp hb
    · rw [List.cons_append, List.takeWhile_append_dropWhile]
  · rintro ⟨text, ⟨hne, hdigits⟩, hr, hahead⟩
    cases text with
    | nil => exact absurd rfl hne
    | cons b text =>
      obtain ⟨rfl, rfl⟩ := List.cons.inj hr
      exact dropWhile_append_eq (fun d hd => hdigits d (List.mem_cons_of_mem _ hd)) hahead

theorem digits_finds (r : Bytes) : Finds (digits r) fun rest =>
    ∃ text, Digits text ∧ r = text ++ rest ∧ Ahead isDigit rest := by
  have hhead : ∀ {text rest : Bytes}, Digits text → r = text ++ rest → ∃ c, r.head? = some c ∧ isDigit c := by
    rintro text rest ⟨hne, hdigits⟩ rfl
    obtain ⟨c, tail, rfl⟩ := List.exists_cons_of_ne_nil hne
    exact ⟨c, rfl, hdigits c List.mem_cons_self⟩
  cases r with
  | nil =>
    apply finds_none
    rintro rest ⟨text, htext, hr, -⟩
    obtain ⟨c, hc, -⟩ := hhead htext hr
    cases hc
  | cons c r =>
    have hnext : digits (c :: r) = if !isDigit c then .ok none else moreDigits (c :: r) := rfl
    rw [hnext]
    cases hc : isDigit c with
    | true => exact moreDigits_finds hc r
    | false =>
      apply finds_none
      rintro rest ⟨text, htext, hr, -⟩
      obtain ⟨b, hb, hdigit⟩ := hhead htext hr
      cases hb
      rw [hc] at hdigit
      cases hdigit

theorem integer_finds (r : Bytes) : Finds (integer r) fun rest =>
    ∃ int, Integer int ∧ r = int ++ rest ∧ (int = [0x30] ∨ Ahead isDigit rest) := by
  cases r with
  | nil =>
    apply finds_none
    rintro rest ⟨int, rfl | ⟨⟨hne, _⟩, _⟩, hr, -⟩
    · cases hr
    · exact hne (List.append_eq_nil_iff.mp hr.symm).1
  | cons c r =>
    have hnext : integer (c :: r) =
        if c = 0x30 then .ok (some r) else if c < 0x31 ∨ 0x39 < c then .ok none else moreDigits (c :: r) :=
      rfl
    have hfirst : ∀ {int rest : Bytes}, Digits int ∧ int.head? ≠ some 0x30 → c :: r = int ++ rest →
        isDigit c = true ∧ c ≠ 0x30 := by
      rintro int rest ⟨⟨hne, hdigits⟩, hhead⟩ hr
      obtain ⟨b, tail, rfl⟩ := List.exists_cons_of_ne_nil hne
      cases hr
      exact ⟨hdigits c List.mem_cons_self, fun h => hhead (congrArg some h)⟩
    rw [hnext]
    split
    · rename_i hzero
      subst hzero
      apply finds_some
      intro rest
      constructor
      · rintro rfl
        exact ⟨[0x30], .inl rfl, rfl, .inl rfl⟩
      · rintro ⟨int, rfl | hint, hr, -⟩
        · cases hr
          rfl
        · exact absurd rfl (hfirst hint hr).2
    · rename_i hzero
      have hrange : (c < 0x31 ∨ 0x39 < c) ↔ isDigit c = false := by
        rw [isDigit, Bool.and_eq_false_iff, decide_eq_false_iff_not, decide_eq_false_iff_not]
        simp only [UInt8.lt_iff_toNat_lt, UInt8.le_iff_toNat_le, UInt8.reduceToNat]
        have : c.toNat ≠ 0x30 := fun h => hzero (UInt8.toNat_inj.mp h)
        omega
      split
      · rename_i hc
        rw [hrange] at hc
        apply finds_none
        rintro rest ⟨int, rfl | hint, hr, -⟩
        · exact hzero (List.cons.inj hr).1
        · rw [(hfirst hint hr).1] at hc
          cases hc
      · rename_i hc
        rw [hrange, Bool.not_eq_false] at hc
        apply (moreDigits_finds hc r).congr
        intro rest
        constructor
        · rintro ⟨text, htext, hr, hahead⟩
          refine ⟨text, .inr ⟨htext, ?_⟩, hr, .inr hahead⟩
          obtain ⟨b, tail, rfl⟩ := List.exists_cons_of_ne_nil htext.1
          cases hr
          exact fun h => hzero (Option.some.inj h)
        · rintro ⟨int, rfl | ⟨hint, _⟩, hr, hahead⟩
          · exact absurd (List.cons.inj hr).1 hzero
          · rcases hahead with rfl | hahead
            · exact absurd (List.cons.inj hr).1 hzero
            · exact ⟨int, hint, hr, hahead⟩

theorem fraction_finds (r : Bytes) : Finds (fraction r) fun rest =>
    r = rest ∧ r.head? ≠ some 0x2e ∨
      ∃ text, Digits text ∧ r = 0x2e :: (text ++ rest) ∧ Ahead isDigit rest := by
  cases r with
  | nil =>
    apply finds_some
    intro rest
    constructor
    · exact fun h => .inl ⟨h, by simp⟩
    · rintro (⟨h, -⟩ | ⟨text, -, hr, -⟩)
      · exact h
      · cases hr
  | cons c r =>
    have hnext : fraction (c :: r) = if c ≠ 0x2e then .ok (some (c :: r)) else digits r := rfl
    rw [hnext]
    split
    · rename_i hc
      apply finds_some
      intro rest
      constructor
      · exact fun h => .inl ⟨h, fun h => hc (Option.some.inj h)⟩
      · rintro (⟨h, -⟩ | ⟨text, -, hr, -⟩)
        · exact h
        · exact absurd (List.cons.inj hr).1 hc
    · rename_i hc
      obtain rfl := not_not.mp hc
      apply (digits_finds r).congr
      intro rest
      constructor
      · rintro ⟨text, htext, rfl, hahead⟩
        exact .inr ⟨text, htext, rfl, hahead⟩
      · rintro (⟨-, h⟩ | ⟨text, htext, hr, hahead⟩)
        · exact absurd rfl h
        · exact ⟨text, htext, (List.cons.inj hr).2, hahead⟩

theorem exponentSign_eq (r : Bytes) : ∃ sign rest, exponentSign r = .ok rest ∧ r = sign ++ rest ∧
    (sign = [0x2b] ∨ sign = [0x2d] ∨ sign = [] ∧ r.head? ≠ some 0x2b ∧ r.head? ≠ some 0x2d) := by
  cases r with
  | nil => exact ⟨[], [], rfl, rfl, .inr (.inr ⟨rfl, by simp, by simp⟩)⟩
  | cons c r =>
    have hnext : exponentSign (c :: r) = if c = 0x2b ∨ c = 0x2d then .ok r else .ok (c :: r) := rfl
    rw [hnext]
    by_cases hplus : c = 0x2b
    · exact ⟨[c], r, by rw [if_pos (.inl hplus)], rfl, .inl (by rw [hplus])⟩
    · by_cases hminus : c = 0x2d
      · exact ⟨[c], r, by rw [if_pos (.inr hminus)], rfl, .inr (.inl (by rw [hminus]))⟩
      · exact ⟨[], c :: r, by rw [if_neg (by simp [hplus, hminus])], rfl,
          .inr (.inr ⟨rfl, by simpa using hplus, by simpa using hminus⟩)⟩

/-- A digit is no sign. -/
theorem digits_head {text : Bytes} (h : Digits text) :
    ∃ c tail, text = c :: tail ∧ isDigit c = true := by
  obtain ⟨c, tail, rfl⟩ := List.exists_cons_of_ne_nil h.1
  exact ⟨c, tail, rfl, h.2 c List.mem_cons_self⟩

theorem exponent_finds (r : Bytes) : Finds (exponent r) fun rest =>
    r = rest ∧ r.head? ≠ some 0x65 ∧ r.head? ≠ some 0x45 ∨
      ∃ e sign text, (e = 0x65 ∨ e = 0x45) ∧ (sign = [] ∨ sign = [0x2b] ∨ sign = [0x2d]) ∧
        Digits text ∧ r = e :: (sign ++ (text ++ rest)) ∧ Ahead isDigit rest := by
  cases r with
  | nil =>
    apply finds_some
    intro rest
    constructor
    · exact fun h => .inl ⟨h, by simp, by simp⟩
    · rintro (⟨h, -⟩ | ⟨e, sign, text, -, -, -, hr, -⟩)
      · exact h
      · cases hr
  | cons c r =>
    obtain ⟨sign, behind, hsign, hr, hcases⟩ := exponentSign_eq r
    have hnext : exponent (c :: r) =
        if c ≠ 0x65 ∧ c ≠ 0x45 then .ok (some (c :: r)) else digits behind := by
      show (if c ≠ 0x65 ∧ c ≠ 0x45 then .ok (some (c :: r)) else (exponentSign r >>= digits) :
        Checked (Option Reader)) = _
      rw [hsign]
      rfl
    rw [hnext]
    split
    · rename_i hc
      apply finds_some
      intro rest
      constructor
      · exact fun h => .inl ⟨h, fun h => hc.1 (Option.some.inj h), fun h => hc.2 (Option.some.inj h)⟩
      · rintro (⟨h, -⟩ | ⟨e, sign, text, he, -, -, hr, -⟩)
        · exact h
        · rw [(List.cons.inj hr).1] at hc
          rcases he with he | he
          · exact absurd he hc.1
          · exact absurd he hc.2
    · rename_i hc
      have hc : c = 0x65 ∨ c = 0x45 := by
        by_contra h
        exact hc (not_or.mp h)
      apply (digits_finds behind).congr
      intro rest
      constructor
      · rintro ⟨text, htext, rfl, hahead⟩
        refine .inr ⟨c, sign, text, hc, ?_, htext, by rw [hr], hahead⟩
        rcases hcases with h | h | ⟨h, -⟩
        · exact .inr (.inl h)
        · exact .inr (.inr h)
        · exact .inl h
      · rintro (⟨-, he, hE⟩ | ⟨e, sign', text, -, hsign', htext, hr', hahead⟩)
        · rcases hc with rfl | rfl
          · exact absurd rfl he
          · exact absurd rfl hE
        · refine ⟨text, htext, ?_, hahead⟩
          have htail := (List.cons.inj hr').2
          obtain ⟨d, tail, rfl, hd⟩ := digits_head htext
          -- the sign that is read is the one that is there
          rcases hcases with rfl | rfl | ⟨rfl, hplus, hminus⟩
          all_goals rcases hsign' with rfl | rfl | rfl
          all_goals rw [hr] at htail
          all_goals simp only [List.nil_append, List.cons_append, List.cons.injEq] at htail
          · rw [← htail.1] at hd
            cases hd
          · exact htail.2
          · exact absurd htail.1 (by decide)
          · rw [← htail.1] at hd
            cases hd
          · exact absurd htail.1 (by decide)
          · exact htail.2
          · exact htail
          · rw [hr, List.nil_append, htail] at hplus
            exact absurd rfl hplus
          · rw [hr, List.nil_append, htail] at hminus
            exact absurd rfl hminus

theorem minus_eq (c : UInt8) (r : Bytes) :
    minus (c :: r) = .ok (if c = 0x2d then r else c :: r) := by
  show (if c = 0x2d then .ok r else .ok (c :: r) : Checked Reader) = _
  split <;> rfl

/-- The bytes that may go on with a number. -/
def numberByte (c : UInt8) : Bool := isDigit c || c == 0x2e || c == 0x65 || c == 0x45

theorem Ahead.mono {p q : UInt8 → Bool} (h : Ahead q rest) (hpq : ∀ c, p c = true → q c = true) :
    Ahead p rest := by
  intro c hc
  have hq := h c hc
  cases hp : p c with
  | false => rfl
  | true => exact (hpq c hp).symm.trans hq

theorem Ahead.head_ne {p : UInt8 → Bool} (h : Ahead p rest) (hc : p c = true) :
    rest.head? ≠ some c := fun heq => Bool.false_ne_true ((h c heq).symm.trans hc)

/-- A number is read without a fault, and what is read is one. -/
theorem number_reads (r : Bytes) : ∃ y, number (c :: r) = .ok y ∧
    ∀ rest, y = some rest → ∃ text, NumberText text ∧ c :: r = text ++ rest := by
  have hnext : number (c :: r) = thenRead (thenRead (integer (if c = 0x2d then r else c :: r)) fraction)
      exponent := by
    rw [number, minus_eq]
    rfl
  obtain ⟨y, hy, hfound⟩ := ((integer_finds (if c = 0x2d then r else c :: r)).then_finds
    fun r _ => fraction_finds r).then_finds fun r _ => exponent_finds r
  refine ⟨y, hnext.trans hy, fun rest hrest => ?_⟩
  obtain ⟨r₂, ⟨r₁, ⟨int, hint, hr, _⟩, hfraction⟩, hexponent⟩ := (hfound rest).mp hrest
  obtain ⟨frac, hfrac, hr₁⟩ : ∃ frac, Fraction frac ∧ r₁ = frac ++ r₂ := by
    rcases hfraction with ⟨h, _⟩ | ⟨text, htext, h, _⟩
    · exact ⟨[], .inl rfl, h⟩
    · exact ⟨0x2e :: text, .inr ⟨text, htext, rfl⟩, h⟩
  obtain ⟨exp, hexp, hr₂⟩ : ∃ exp, Exponent exp ∧ r₂ = exp ++ rest := by
    rcases hexponent with ⟨h, _⟩ | ⟨e, sign, text, he, hsign, htext, h, _⟩
    · exact ⟨[], .inl rfl, h⟩
    · exact ⟨e :: (sign ++ text), .inr ⟨e, sign, text, he, hsign, htext, rfl⟩, by simp [h]⟩
  rw [hr₁, hr₂] at hr
  by_cases hc : c = 0x2d
  · rw [if_pos hc] at hr
    exact ⟨_, ⟨[0x2d], int, frac, exp, .inr rfl, hint, hfrac, hexp, rfl⟩, by simp [hc, hr]⟩
  · rw [if_neg hc] at hr
    exact ⟨_, ⟨[], int, frac, exp, .inl rfl, hint, hfrac, hexp, rfl⟩, by simp [hr]⟩

theorem integer_head {int : Bytes} (h : Integer int) : ∃ d tail, int = d :: tail ∧ isDigit d = true := by
  rcases h with rfl | ⟨h, _⟩
  · exact ⟨0x30, [], rfl, rfl⟩
  · exact digits_head h

/-- A number is read up to its end, if what follows it cannot go on with it. -/
theorem number_complete {text : Bytes} (h : NumberText text) (hrest : Ahead numberByte rest) :
    number (text ++ rest) = .ok (some rest) := by
  obtain ⟨sign, int, frac, exp, hsign, hint, hfrac, hexp, rfl⟩ := h
  have hdigit : ∀ c, isDigit c = true → numberByte c = true := fun c hc => by simp [numberByte, hc]
  -- what is ahead of each part
  have hexpRest : Ahead isDigit rest := hrest.mono hdigit
  have hfracRest : Ahead isDigit (exp ++ rest) ∧ (exp ++ rest).head? ≠ some 0x2e := by
    rcases hexp with rfl | ⟨e, s, ds, he, _, _, rfl⟩
    · exact ⟨hexpRest, hrest.head_ne rfl⟩
    · rcases he with rfl | rfl
      all_goals exact ⟨fun c hc => by rw [← Option.some.inj hc]; rfl, by simp⟩
  have hintRest : Ahead isDigit (frac ++ (exp ++ rest)) := by
    rcases hfrac with rfl | ⟨ds, _, rfl⟩
    · exact hfracRest.1
    · exact fun c hc => by rw [← Option.some.inj hc]; rfl
  -- the parts
  have hreadInt : integer (int ++ (frac ++ (exp ++ rest))) = .ok (some (frac ++ (exp ++ rest))) :=
    (integer_finds _).eq_some ⟨int, hint, rfl, .inr hintRest⟩
  have hreadFrac : fraction (frac ++ (exp ++ rest)) = .ok (some (exp ++ rest)) := by
    apply (fraction_finds _).eq_some
    rcases hfrac with rfl | ⟨ds, hds, rfl⟩
    · exact .inl ⟨rfl, hfracRest.2⟩
    · exact .inr ⟨ds, hds, rfl, hfracRest.1⟩
  have hreadExp : exponent (exp ++ rest) = .ok (some rest) := by
    apply (exponent_finds _).eq_some
    rcases hexp with rfl | ⟨e, s, ds, he, hs, hds, rfl⟩
    · exact .inl ⟨rfl, hrest.head_ne rfl, hrest.head_ne rfl⟩
    · exact .inr ⟨e, s, ds, he, hs, hds, by simp, hexpRest⟩
  have hminus : minus (sign ++ (int ++ (frac ++ exp)) ++ rest) =
      .ok (int ++ (frac ++ (exp ++ rest))) := by
    simp only [List.append_assoc]
    rcases hsign with rfl | rfl
    · obtain ⟨d, tail, rfl, hd⟩ := integer_head hint
      have hne : d ≠ 0x2d := by
        rintro rfl
        cases hd
      exact (minus_eq _ _).trans (by rw [if_neg hne]; rfl)
    · exact minus_eq _ _
  rw [number, hminus]
  show thenRead (thenRead (integer _) fraction) exponent = _
  rw [hreadInt]
  show thenRead (fraction _) exponent = _
  rw [hreadFrac]
  exact hreadExp

end TimeCapsule.Telemetry
