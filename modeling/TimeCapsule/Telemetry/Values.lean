import TimeCapsule.Lib.Runs
import TimeCapsule.Telemetry.Reading

/-!
# Values

The reader takes a value exactly when the grammar of JSON has one there with so many levels of nesting,
and it takes the items of a container one by one.
-/

namespace TimeCapsule.Telemetry

open Lib Lib.JsonText

variable {r rest w : Bytes} {c : UInt8}

/-! ## Readers -/

/-- The reader takes the texts in `V` behind white space, when nothing goes on with a number. -/
structure ReadsText (f : Reader → Checked (Option Reader)) (V : Bytes → Prop) : Prop where
  total : ∀ r, ∃ y, f r = .ok y
  sound : ∀ {r rest}, f r = .ok (some rest) →
    ∃ w text, Blank w ∧ V text ∧ r = w ++ (text ++ rest)
  complete : ∀ {w text rest}, Blank w → V text → Ahead numberByte rest →
    f (w ++ (text ++ rest)) = .ok (some rest)

/-- The reader takes an item that may come next, and makes the step for it. -/
structure ReadsItem {σ α : Type} (item : σ → Reader → Checked (Option (σ × Reader)))
    (E : α → Bytes → Prop) (after : σ → α → σ) (may : σ → α → Prop) : Prop where
  total : ∀ s r, ∃ y, item s r = .ok y
  sound : ∀ {s s' r rest}, item s r = .ok (some (s', rest)) →
    ∃ w a text, Blank w ∧ E a text ∧ may s a ∧ s' = after s a ∧ r = w ++ (text ++ rest)
  complete : ∀ {s a w text rest}, Blank w → E a text → may s a → Ahead numberByte rest →
    item s (w ++ (text ++ rest)) = .ok (some (after s a, rest))

theorem blank_append {w w' : Bytes} (h : Blank w) (h' : Blank w') : Blank (w ++ w') := by
  intro c hc
  rcases List.mem_append.mp hc with hc | hc
  · exact h c hc
  · exact h' c hc

theorem numberByte_of_isSpace (h : isSpace c = true) : numberByte c = false := by
  simp only [isSpace, Bool.or_eq_true, beq_iff_eq] at h
  rcases h with ((rfl | rfl) | rfl) | rfl <;> rfl

/-- White space and another byte end a number. -/
theorem ahead_blank (hw : Blank w) (hc : numberByte c = false) : Ahead numberByte (w ++ c :: r) := by
  cases w with
  | nil =>
    intro b hb
    rwa [← Option.some.inj hb]
  | cons b w =>
    intro b' hb
    rw [← Option.some.inj hb]
    exact numberByte_of_isSpace (hw b List.mem_cons_self)

theorem space_head (h : isSpace c = false) (r : Bytes) : space (c :: r) = c :: r := by
  apply space_of_head
  intro b hb
  rwa [← Option.some.inj hb]

theorem space_space (r : Bytes) : space (space r) = space r := by
  obtain ⟨_, _, _, h⟩ := space_split r
  exact space_of_head h

/-! ## Items -/

section Items

variable {σ α : Type} {item : σ → Reader → Checked (Option (σ × Reader))} {E : α → Bytes → Prop}
  {after : σ → α → σ} {may : σ → α → Prop} {close : UInt8}

theorem take_total (r : Bytes) (c : UInt8) : ∃ b r', take r c = .ok (b, r') := by
  rcases take_cases r c with ⟨rest, _, h⟩ | ⟨_, h⟩
  · exact ⟨_, _, h⟩
  · exact ⟨_, _, h⟩

theorem itemLoop_total (h : ReadsItem item E after may) (fuel : Nat) (s : σ) (r : Bytes) :
    ∃ y, itemLoop item close fuel s r = .ok y := by
  induction fuel generalizing s r with
  | zero => exact ⟨none, rfl⟩
  | succ fuel ih =>
    obtain ⟨y, hy⟩ := h.total s r
    rw [itemLoop, hy]
    cases y with
    | none => exact ⟨none, rfl⟩
    | some got =>
      obtain ⟨closed, r₁, htake⟩ := take_total got.2 close
      obtain ⟨more, r₂, htake'⟩ := take_total r₁ comma
      show ∃ y, (take got.2 close >>= fun closed => _) = .ok y
      rw [htake, ok_bind]
      cases closed with
      | true => exact ⟨_, rfl⟩
      | false =>
        show ∃ y, (take r₁ comma >>= fun more => _) = .ok y
        rw [htake', ok_bind]
        cases more with
        | true => exact ih got.1 r₂
        | false => exact ⟨_, rfl⟩

/-- One turn of the loop, which ends it or goes on behind a comma. -/
theorem itemLoop_succ {fuel : Nat} {s s₁ : σ} {r₁ : Bytes} (hitem : item s r = .ok (some (s₁, r₁))) :
    (∃ rest, space r₁ = close :: rest ∧ itemLoop item close (fuel + 1) s r = .ok (some (s₁, rest))) ∨
    (space r₁).head? ≠ some close ∧
      ((∃ rest, space r₁ = comma :: rest ∧
          itemLoop item close (fuel + 1) s r = itemLoop item close fuel s₁ rest) ∨
        (space r₁).head? ≠ some comma ∧ itemLoop item close (fuel + 1) s r = .ok none) := by
  rw [itemLoop, hitem]
  rcases take_cases r₁ close with ⟨rest, hspace, htake⟩ | ⟨hhead, htake⟩
  · refine .inl ⟨rest, hspace, ?_⟩
    show (take r₁ close >>= fun closed => _) = _
    rw [htake]
    rfl
  · refine .inr ⟨hhead, ?_⟩
    have hnext : (thenRead (.ok (some (s₁, r₁))) fun got => do
        let closed ← take got.2 close
        if closed.1 then .ok (some (got.1, closed.2))
        else do
          let more ← take closed.2 comma
          if more.1 then itemLoop item close fuel got.1 more.2 else .ok none) =
        (take (space r₁) comma >>= fun more =>
          if more.1 then itemLoop item close fuel s₁ more.2 else .ok none) := by
      show (take r₁ close >>= fun closed => _) = _
      rw [htake]
      rfl
    rw [hnext]
    rcases take_cases (space r₁) comma with ⟨rest, hspace, htake'⟩ | ⟨hhead', htake'⟩
    · rw [space_space] at hspace
      exact .inl ⟨rest, hspace, by rw [htake']; rfl⟩
    · rw [space_space] at hhead'
      exact .inr ⟨hhead', by rw [htake']; rfl⟩

theorem itemLoop_sound (h : ReadsItem item E after may) (fuel : Nat) {s s' : σ} {r rest : Bytes}
    (hloop : itemLoop item close fuel s r = .ok (some (s', rest))) :
    ∃ members text, Separated E members text ∧ MayMake after may s members ∧
      s' = members.foldl after s ∧ r = text ++ close :: rest := by
  induction fuel generalizing s r with
  | zero => cases hloop
  | succ fuel ih =>
    obtain ⟨y, hy⟩ := h.total s r
    cases y with
    | none =>
      rw [itemLoop, hy] at hloop
      cases hloop
    | some got =>
      obtain ⟨s₁, r₁⟩ := got
      obtain ⟨w, a, text, hw, ha, hmay, rfl, rfl⟩ := h.sound hy
      obtain ⟨w', hw', hr₁, _⟩ := space_split r₁
      rcases itemLoop_succ hy with ⟨rest', hspace, hnext⟩ | ⟨_, ⟨rest', hspace, hnext⟩ | ⟨_, hnext⟩⟩
      · rw [hnext] at hloop
        cases hloop
        rw [hspace] at hr₁
        exact ⟨[a], _, .one hw ha hw', ⟨hmay, trivial⟩, rfl, by rw [hr₁]; simp⟩
      · rw [hnext] at hloop
        obtain ⟨members, text', hmembers, hmays, hs', hrest'⟩ := ih hloop
        rw [hspace] at hr₁
        exact ⟨a :: members, _, .more hw ha hw' hmembers, ⟨hmay, hmays⟩, hs',
          by rw [hr₁, hrest']; simp⟩
      · rw [hnext] at hloop
        cases hloop

theorem itemLoop_complete (h : ReadsItem item E after may) (hclose : isSpace close = false)
    (hstop : numberByte close = false) (hcomma : close ≠ comma) {members : List α} {text : Bytes}
    (hmembers : Separated E members text) {fuel : Nat} {s : σ} (hmays : MayMake after may s members)
    (hfuel : text.length < fuel) :
    itemLoop item close fuel s (text ++ close :: rest) =
      .ok (some (members.foldl after s, rest)) := by
  induction hmembers generalizing fuel s with
  | one hb ha hbehind =>
    obtain ⟨fuel, rfl⟩ := Nat.exists_eq_succ_of_ne_zero (Nat.ne_zero_of_lt hfuel)
    simp only [List.append_assoc]
    have hitem := h.complete hb ha hmays.1 (ahead_blank (r := rest) hbehind hstop)
    have hspace : ∀ {w : Bytes}, Blank w → space (w ++ close :: rest) = close :: rest :=
      fun hw => (space_append hw).trans (space_head hclose rest)
    rcases itemLoop_succ hitem with ⟨rest', h', hnext⟩ | ⟨hne, _⟩
    · rw [hspace hbehind] at h'
      cases h'
      exact hnext
    · rw [hspace hbehind] at hne
      exact absurd rfl hne
  | @more a items before text after' rest' hb ha hbehind hrest ih =>
    obtain ⟨fuel, rfl⟩ := Nat.exists_eq_succ_of_ne_zero (Nat.ne_zero_of_lt hfuel)
    simp only [List.append_assoc, List.cons_append]
    have hitem := h.complete hb ha hmays.1
      (ahead_blank (c := comma) (r := rest' ++ close :: rest) hbehind rfl)
    have hspace : space (after' ++ comma :: (rest' ++ close :: rest)) =
        comma :: (rest' ++ close :: rest) := (space_append hbehind).trans (space_head rfl _)
    have hlen : rest'.length < fuel := by
      simp only [List.length_append, List.length_cons] at hfuel
      omega
    rcases itemLoop_succ hitem with ⟨tail, h', _⟩ | ⟨_, ⟨tail, h', hnext⟩ | ⟨hne, _⟩⟩
    · rw [hspace] at h'
      exact absurd (List.cons.inj h').1.symm hcomma
    · rw [hspace] at h'
      cases h'
      rw [hnext]
      exact ih hmays.2 hlen
    · rw [hspace] at hne
      exact absurd rfl hne

variable (close) in
/-- The items up to the closing bracket. -/
theorem items_total (h : ReadsItem item E after may) (s : σ) (r : Bytes) :
    ∃ y, items item close s r = .ok y := by
  obtain ⟨closed, r', htake⟩ := take_total r close
  rw [items, htake, ok_bind]
  cases closed with
  | true => exact ⟨_, rfl⟩
  | false => exact itemLoop_total h r'.length s r'

theorem separated_blank {members : List α} {text : Bytes} (hw : Blank w)
    (h : Separated E members text) : Separated E members (w ++ text) := by
  cases h with
  | one hb ha hbehind =>
    rw [← List.append_assoc]
    exact .one (blank_append hw hb) ha hbehind
  | more hb ha hbehind hrest =>
    rw [← List.append_assoc]
    exact .more (blank_append hw hb) ha hbehind hrest

theorem items_sound (h : ReadsItem item E after may) {s s' : σ} {r rest : Bytes}
    (hitems : items item close s r = .ok (some (s', rest))) :
    ∃ members inner, Listed E members inner ∧ MayMake after may s members ∧
      s' = members.foldl after s ∧ r = inner ++ close :: rest := by
  obtain ⟨w, hw, hr, _⟩ := space_split r
  rcases take_cases r close with ⟨rest', hspace, htake⟩ | ⟨_, htake⟩
  · rw [items, htake] at hitems
    cases hitems
    rw [hspace] at hr
    exact ⟨[], w, .inl ⟨rfl, hw⟩, trivial, rfl, hr⟩
  · rw [items, htake] at hitems
    obtain ⟨members, text, hmembers, hmays, hs', hrest⟩ := itemLoop_sound h _ hitems
    have hrest : space r = text ++ close :: rest := hrest
    exact ⟨members, w ++ text, .inr (separated_blank hw hmembers), hmays, hs', by
      rw [hr, hrest, List.append_assoc]⟩

/-- The items without the white space in front of them, which begin with the first one. -/
theorem separated_space {members : List α} {text : Bytes} (h : Separated E members text)
    (hhead : ∀ a text, E a text → ∃ c tail, text = c :: tail ∧ isSpace c = false ∧ c ≠ close)
    (tail : Bytes) : ∃ text', Separated E members text' ∧ space (text ++ tail) = text' ++ tail ∧
      (text' ++ tail).head? ≠ some close := by
  cases h with
  | @one a before text behind hb ha hbehind =>
    obtain ⟨c, t, rfl, hspace, hne⟩ := hhead a _ ha
    refine ⟨[] ++ (c :: t ++ behind), .one blank_nil ha hbehind, ?_, by simpa using hne⟩
    rw [List.append_assoc, space_append hb]
    exact space_head hspace _
  | @more a items before text behind rest hb ha hbehind hrest =>
    obtain ⟨c, t, rfl, hspace, hne⟩ := hhead a _ ha
    refine ⟨[] ++ (c :: t ++ (behind ++ comma :: rest)), .more blank_nil ha hbehind hrest, ?_,
      by simpa using hne⟩
    rw [List.append_assoc, space_append hb]
    exact space_head hspace _

variable (rest close) in
theorem items_complete (h : ReadsItem item E after may) (hclose : isSpace close = false)
    (hstop : numberByte close = false) (hcomma : close ≠ comma)
    (hhead : ∀ a text, E a text → ∃ c tail, text = c :: tail ∧ isSpace c = false ∧ c ≠ close)
    {members : List α} {inner : Bytes} (hlisted : Listed E members inner) {s : σ}
    (hmays : MayMake after may s members) :
    items item close s (inner ++ close :: rest) = .ok (some (members.foldl after s, rest)) := by
  rcases hlisted with ⟨rfl, hblank⟩ | hmembers
  · rw [items, take_append hblank hclose]
    rfl
  · obtain ⟨text, htext, hspace, hne⟩ := separated_space hmembers hhead (close :: rest)
    have htake : take (inner ++ close :: rest) close = .ok (false, text ++ close :: rest) := by
      rw [take_of_head (by rw [hspace]; exact hne), hspace]
    rw [items, htake]
    exact itemLoop_complete h hclose hstop hcomma htext hmays (by simp)

end Items

/-! ## Keys -/

/-- A key and its colon. -/
def KeyText (cap : Option Nat) (codes : List Nat) (out text : Bytes) : Prop :=
  ∃ string before, StringText codes string ∧ Blank before ∧ Stored cap [] codes out ∧
    text = string ++ (before ++ [colon])

theorem key_finds {cap : Option Nat} (hcap : Fits cap []) (r : Bytes) :
    Finds (key cap r) (Spaced (fun out text => ∃ codes, KeyText cap codes out text) r) := by
  have hread := (string_finds hcap r).then_finds
    (f := fun key => take key.2 colon >>= fun behind =>
      if behind.1 then .ok (some (key.1, behind.2)) else .ok none)
    (M := fun key found => found.1 = key.1 ∧ ∃ before, Blank before ∧
      key.2 = before ++ colon :: found.2) (by
    rintro ⟨out, r₁⟩ _
    obtain ⟨w, hw, hr₁, _⟩ := space_split r₁
    rcases take_cases r₁ colon with ⟨rest, hspace, htake⟩ | ⟨hhead, htake⟩
    · rw [htake]
      rw [hspace] at hr₁
      apply finds_some
      rintro ⟨out', rest'⟩
      constructor
      · rintro ⟨⟩
        exact ⟨rfl, w, hw, hr₁⟩
      · rintro ⟨hout, before, hbefore, hr⟩
        have htake' := take_append (r := rest') hbefore (show isSpace colon = false from rfl)
        rw [← show r₁ = before ++ colon :: rest' from hr, htake] at htake'
        have hrest : rest = rest' := congrArg Prod.snd (Except.ok.inj htake')
        exact Prod.ext hout.symm hrest
    · rw [htake]
      apply finds_none
      rintro ⟨out', rest'⟩ ⟨_, before, hbefore, hr⟩
      have htake' := take_append (r := rest') hbefore (show isSpace colon = false from rfl)
      rw [← show r₁ = before ++ colon :: rest' from hr, htake] at htake'
      exact absurd htake' (by simp))
  apply hread.congr
  rintro ⟨out, rest⟩
  constructor
  · rintro ⟨⟨_, r₁⟩, ⟨w, text, hw, ⟨codes, hstring, hstored⟩, rfl⟩, rfl, before, hbefore, hr₁⟩
    exact ⟨w, _, hw, ⟨codes, text, before, hstring, hbefore, hstored, rfl⟩, by
      simp only [show r₁ = before ++ colon :: rest from hr₁, List.append_assoc, List.cons_append,
        List.nil_append]⟩
  · rintro ⟨w, _, hw, ⟨codes, text, before, hstring, hbefore, hstored, rfl⟩, rfl⟩
    exact ⟨(out, before ++ colon :: rest), ⟨w, text, hw, ⟨codes, hstring, hstored⟩, by simp⟩, rfl,
      before, hbefore, rfl⟩

/-! ## Values inside of containers -/

theorem map_ok_some {α β : Type} {x : Checked (Option α)} {f : α → β} {b : β}
    (h : x.map (·.map f) = .ok (some b)) : ∃ a, x = .ok (some a) ∧ f a = b := by
  cases x with
  | error e => cases h
  | ok y =>
    obtain ⟨a, rfl, hb⟩ := Option.map_eq_some_iff.mp (Except.ok.inj h)
    exact ⟨a, rfl, hb⟩

theorem map_total {α β : Type} {x : Checked (Option α)} {f : α → β} (h : ∃ y, x = .ok y) :
    ∃ y, x.map (·.map f) = .ok y := by
  obtain ⟨y, rfl⟩ := h
  exact ⟨_, rfl⟩

section Values

variable {value : Reader → Checked (Option Reader)} {V : Bytes → Prop}

/-- A step that may always be made, and changes nothing. -/
abbrev sameUnit {α : Type} : Unit → α → Unit := fun _ _ => ()

abbrev always {σ α : Type} : σ → α → Prop := fun _ _ => True

theorem valueItem_array (h : ReadsText value V) :
    ReadsItem (valueItem value closeBracket) (fun item text => text = item ∧ V item) sameUnit always where
  total _ r := map_total (h.total r)
  sound {_ _ r rest} hitem := by
    obtain ⟨_, hvalue, hrest⟩ := map_ok_some hitem
    obtain ⟨w, text, hw, htext, hr⟩ := h.sound hvalue
    cases hrest
    exact ⟨w, text, text, hw, ⟨rfl, htext⟩, trivial, rfl, hr⟩
  complete {s a w text rest} hw htext _ hahead := by
    obtain ⟨rfl, htext⟩ := htext
    show (value (w ++ (text ++ rest))).map _ = _
    rw [h.complete hw htext hahead]
    rfl

theorem valueItem_object (h : ReadsText value V) :
    ReadsItem (valueItem value closeBrace) (MemberText fun _ => V) sameUnit always where
  total s r := by
    obtain ⟨y, hy, _⟩ := key_finds (fits_none []) r
    show ∃ y, thenRead (key none r) _ = .ok y
    rw [hy]
    cases y with
    | none => exact ⟨none, rfl⟩
    | some found => exact map_total (h.total found.2)
  sound {_ s' r rest} hitem := by
    obtain ⟨y, hy, hfound⟩ := key_finds (fits_none []) r
    replace hitem : thenRead (key none r) (fun key => (value key.2).map (·.map fun r => ((), r))) =
      .ok (some (s', rest)) := hitem
    rw [hy] at hitem
    cases y with
    | none => cases hitem
    | some found =>
      obtain ⟨out, r₁⟩ := found
      obtain ⟨w, _, hw, ⟨codes, string, before, hstring, hbefore, _, rfl⟩, hr⟩ := (hfound _).mp rfl
      obtain ⟨_, hvalue, hrest⟩ := map_ok_some hitem
      obtain ⟨behind, text, hbehind, htext, hr₁⟩ := h.sound hvalue
      cases hrest
      exact ⟨w, (codes, text), _, hw, ⟨string, before, behind, hstring, hbefore, hbehind, htext, rfl⟩,
        trivial, rfl, by rw [hr, show r₁ = _ from hr₁]; simp⟩
  complete {s a w text rest} hw htext _ hahead := by
    obtain ⟨string, before, behind, hstring, hbefore, hbehind, htext, rfl⟩ := htext
    have hkey := (key_finds (fits_none [])
      (w ++ (string ++ (before ++ colon :: (behind ++ a.2)) ++ rest))).eq_some
      (a := ([], behind ++ (a.2 ++ rest)))
      ⟨w, _, hw, ⟨a.1, string, before, hstring, hbefore, rfl, rfl⟩, by simp⟩
    show thenRead (key none _) _ = _
    rw [hkey]
    show (value (behind ++ (a.2 ++ rest))).map _ = _
    rw [h.complete hbehind htext hahead]
    rfl

end Values

/-! ## Literals and numbers -/

/-- Whether the text is next, behind white space. -/
theorem literal_cases (r s : Bytes) :
    (∃ rest, space r = s ++ rest ∧ literal r s = .ok (true, rest)) ∨
      ¬ s <+: space r ∧ literal r s = .ok (false, space r) := by
  unfold literal
  dsimp only
  by_cases hlen : (space r).length < s.length
  · refine .inr ⟨fun h => absurd h.length_le (Nat.not_le.mpr hlen), by rw [if_pos hlen]⟩
  · have hbytes : bytesAt (space r) 0 s.length = .ok ((space r).take s.length) :=
      bytesAt_eq (by omega)
    rw [if_neg hlen, hbytes, ok_bind]
    by_cases heq : (space r).take s.length = s
    · refine .inl ⟨(space r).drop s.length, ?_, by rw [if_neg (not_not.mpr heq)]⟩
      conv_lhs => rw [← List.take_append_drop s.length (space r), heq]
    · exact .inr ⟨fun h => heq (List.prefix_iff_eq_take.mp h).symm, by rw [if_pos heq]⟩

theorem ascii_true : ascii "true" = [0x74, 0x72, 0x75, 0x65] := by decide +kernel

theorem ascii_false : ascii "false" = [0x66, 0x61, 0x6c, 0x73, 0x65] := by decide +kernel

theorem ascii_null : ascii "null" = [0x6e, 0x75, 0x6c, 0x6c] := by decide +kernel

/-- A text that begins with another byte is not next. -/
theorem literal_ne {b : UInt8} {s : Bytes} (hc : isSpace c = false) (hne : c ≠ b) :
    literal (c :: r) (b :: s) = .ok (false, c :: r) := by
  rcases literal_cases (c :: r) (b :: s) with ⟨rest, h, _⟩ | ⟨_, h⟩
  · rw [space_head hc] at h
    exact absurd (List.cons.inj h).1 hne
  · rwa [space_head hc] at h

theorem literal_self {b : UInt8} {s : Bytes} (hb : isSpace b = false) :
    literal (b :: s ++ rest) (b :: s) = .ok (true, rest) := by
  rcases literal_cases (b :: s ++ rest) (b :: s) with ⟨rest', h, heq⟩ | ⟨h, _⟩
  · rw [List.cons_append, space_head hb] at h
    rw [heq, List.append_cancel_left (List.cons.inj h).2]
  · rw [List.cons_append, space_head hb] at h
    exact absurd (List.prefix_append (b :: s) rest) h

/-- What is neither a string nor a container. -/
def ScalarText (text : Bytes) : Prop := text ∈ literals ∨ NumberText text

theorem scalar_reads (hc : isSpace c = false) (r : Bytes) : ∃ y, scalar (c :: r) = .ok y ∧
    ∀ rest, y = some rest → ∃ text, ScalarText text ∧ c :: r = text ++ rest := by
  have hspace := space_head hc r
  have hliteral : ∀ {s rest : Bytes}, s ∈ literals → space (c :: r) = s ++ rest →
      ∀ rest', some rest = some rest' → ∃ text, ScalarText text ∧ c :: r = text ++ rest' := by
    intro s rest hs heq rest' hrest
    cases hrest
    exact ⟨s, .inl hs, hspace.symm.trans heq⟩
  rw [scalar]
  rcases literal_cases (c :: r) (ascii "true") with ⟨rest, heq, htrue⟩ | ⟨_, htrue⟩
  · rw [htrue]
    exact ⟨some rest, rfl, hliteral (by simp [literals]) heq⟩
  rw [htrue, hspace, ok_bind]
  dsimp only
  rcases literal_cases (c :: r) (ascii "false") with ⟨rest, heq, hfalse⟩ | ⟨_, hfalse⟩
  · rw [hfalse]
    exact ⟨some rest, rfl, hliteral (by simp [literals]) heq⟩
  rw [hfalse, hspace]
  rcases literal_cases (c :: r) (ascii "null") with ⟨rest, heq, hnull⟩ | ⟨_, hnull⟩
  · refine ⟨some rest, ?_, hliteral (by simp [literals]) heq⟩
    show (literal (c :: r) (ascii "null") >>= fun isNull => _) = _
    rw [hnull]
    rfl
  obtain ⟨y, hy, hsound⟩ := number_reads (c := c) r
  refine ⟨y, ?_, fun rest hrest => ?_⟩
  · show (literal (c :: r) (ascii "null") >>= fun isNull => _) = _
    rw [hnull, hspace]
    exact hy
  · obtain ⟨text, htext, hr⟩ := hsound rest hrest
    exact ⟨text, .inr htext, hr⟩

/-- The first byte of a number. -/
theorem number_head {text : Bytes} (h : NumberText text) :
    ∃ c tail, text = c :: tail ∧ (c = 0x2d ∨ isDigit c = true) := by
  obtain ⟨sign, int, frac, exp, hsign, hint, -, -, rfl⟩ := h
  rcases hsign with rfl | rfl
  · obtain ⟨d, tail, rfl, hd⟩ := integer_head hint
    exact ⟨d, _, rfl, .inr hd⟩
  · exact ⟨0x2d, _, rfl, .inl rfl⟩

theorem number_first (h : c = 0x2d ∨ isDigit c = true) : 0x2d ≤ c.toNat ∧ c.toNat ≤ 0x39 := by
  rcases h with rfl | h
  · decide
  · rw [isDigit, Bool.and_eq_true, decide_eq_true_iff, decide_eq_true_iff] at h
    simp only [UInt8.le_iff_toNat_le, UInt8.reduceToNat] at h
    omega

theorem ne_of_toNat {b : UInt8} (h : c.toNat ≠ b.toNat) : c ≠ b := fun heq => h (congrArg _ heq)

theorem isSpace_of_large (h : 0x21 ≤ c.toNat) : isSpace c = false := by
  cases hs : isSpace c with
  | false => rfl
  | true =>
    simp only [isSpace, Bool.or_eq_true, beq_iff_eq] at hs
    rcases hs with ((rfl | rfl) | rfl) | rfl <;> simp at h

theorem scalar_complete {text : Bytes} (h : ScalarText text) (hrest : Ahead numberByte rest) :
    scalar (text ++ rest) = .ok (some rest) := by
  rw [scalar, ascii_true, ascii_false, ascii_null]
  rcases h with h | h
  · simp only [literals, List.mem_cons, List.not_mem_nil, or_false, ascii_true, ascii_false,
      ascii_null] at h
    rcases h with rfl | rfl | rfl
    · rw [literal_self rfl]
      rfl
    · have htrue : literal ([0x66, 0x61, 0x6c, 0x73, 0x65] ++ rest) [0x74, 0x72, 0x75, 0x65] =
          .ok (false, [0x66, 0x61, 0x6c, 0x73, 0x65] ++ rest) := literal_ne rfl (by decide)
      rw [htrue, ok_bind]
      dsimp only
      rw [literal_self rfl]
      rfl
    · have htrue : literal ([0x6e, 0x75, 0x6c, 0x6c] ++ rest) [0x74, 0x72, 0x75, 0x65] =
          .ok (false, [0x6e, 0x75, 0x6c, 0x6c] ++ rest) := literal_ne rfl (by decide)
      have hfalse : literal ([0x6e, 0x75, 0x6c, 0x6c] ++ rest) [0x66, 0x61, 0x6c, 0x73, 0x65] =
          .ok (false, [0x6e, 0x75, 0x6c, 0x6c] ++ rest) := literal_ne rfl (by decide)
      rw [htrue, ok_bind]
      dsimp only
      rw [hfalse, ok_bind]
      dsimp only
      rw [literal_self rfl]
      rfl
  · have hnumber := number_complete h hrest
    obtain ⟨c, tail, rfl, hc⟩ := number_head h
    have hrange := number_first hc
    have hspace : isSpace c = false := isSpace_of_large (by omega)
    have hskip : ∀ (b : UInt8) (s : Bytes), 0x39 < b.toNat →
        literal (c :: tail ++ rest) (b :: s) = .ok (false, c :: tail ++ rest) :=
      fun b s hb => literal_ne hspace (ne_of_toNat (by omega))
    rw [hskip _ _ (by decide), ok_bind]
    dsimp only
    rw [hskip _ _ (by decide), ok_bind]
    dsimp only
    rw [hskip _ _ (by decide)]
    exact hnumber

/-- The first byte of a scalar opens no other value and ends no container. -/
theorem scalar_first {text : Bytes} (h : ScalarText text) :
    ∃ c tail, text = c :: tail ∧ isSpace c = false ∧ c ≠ quote ∧ (c ≠ openBrace ∧ c ≠ openBracket) ∧
      c ≠ closeBrace ∧ c ≠ closeBracket := by
  rcases h with h | h
  · simp only [literals, List.mem_cons, List.not_mem_nil, or_false, ascii_true, ascii_false,
      ascii_null] at h
    rcases h with rfl | rfl | rfl <;> exact ⟨_, _, rfl, rfl, by decide, by decide, by decide, by decide⟩
  · obtain ⟨c, tail, rfl, hc⟩ := number_head h
    have hrange := number_first hc
    have hne : ∀ b : UInt8, b.toNat < 0x2d ∨ 0x39 < b.toNat → c ≠ b :=
      fun b hb => ne_of_toNat (by omega)
    exact ⟨c, tail, rfl, isSpace_of_large (by omega), hne quote (by decide),
      ⟨hne openBrace (by decide), hne openBracket (by decide)⟩, hne closeBrace (by decide),
      hne closeBracket (by decide)⟩

/-! ## All values -/

/-- A value begins with a byte that is neither white space nor a closing bracket. -/
theorem valueText_head {levels : Nat} {text : Bytes} (h : ValueText levels text) :
    ∃ c tail, text = c :: tail ∧ isSpace c = false ∧ c ≠ closeBrace ∧ c ≠ closeBracket := by
  cases levels with
  | zero => exact h.elim
  | succ levels =>
    rcases h with ⟨codes, body, _, rfl⟩ | ⟨_, inner, _, rfl⟩ | ⟨_, inner, _, rfl⟩ | h
    · exact ⟨_, _, rfl, rfl, by decide, by decide⟩
    · exact ⟨_, _, rfl, rfl, by decide, by decide⟩
    · exact ⟨_, _, rfl, rfl, by decide, by decide⟩
    · obtain ⟨c, tail, htext, hspace, _, _, hclose⟩ := scalar_first h
      exact ⟨c, tail, htext, hspace, hclose⟩

theorem memberText_head {V : List Nat → Bytes → Prop} {m : List Nat × Bytes} {text : Bytes}
    (h : MemberText V m text) : ∃ tail, text = quote :: tail := by
  obtain ⟨_, before, after, ⟨body, _, rfl⟩, _, _, _, rfl⟩ := h
  exact ⟨_, rfl⟩

theorem value_succ_cons {levels : Nat} (hc : isSpace c = false) (hw : Blank w) (r : Bytes) :
    value (levels + 1) (w ++ c :: r) =
      if c = quote then (string none (c :: r)).map (·.map Prod.snd)
      else if c = openBrace ∨ c = openBracket then
        container (value levels) (if c = openBrace then closeBrace else closeBracket) r
      else scalar (c :: r) := by
  rw [value, space_append hw, space_head hc]
  rfl

/-- The items of an object or an array. -/
theorem container_reads {levels : Nat} (h : ReadsText (value levels) (ValueText levels))
    (hc : c = openBrace ∨ c = openBracket) (r : Bytes) :
    ∃ y, container (value levels) (if c = openBrace then closeBrace else closeBracket) r = .ok y ∧
      ∀ rest, y = some rest → ∃ text, ValueText (levels + 1) text ∧ c :: r = text ++ rest := by
  rcases hc with rfl | rfl
  · obtain ⟨y, hy⟩ := items_total closeBrace (valueItem_object h) () r
    refine ⟨y.map Prod.snd, by rw [if_pos rfl, container, hy]; rfl, fun rest hrest => ?_⟩
    obtain ⟨⟨_, _⟩, rfl, rfl⟩ := Option.map_eq_some_iff.mp hrest
    obtain ⟨members, inner, hlisted, _, _, rfl⟩ := items_sound (valueItem_object h) hy
    exact ⟨openBrace :: (inner ++ [closeBrace]), .inr (.inr (.inl ⟨members, inner, hlisted, rfl⟩)),
      by simp⟩
  · obtain ⟨y, hy⟩ := items_total closeBracket (valueItem_array h) () r
    refine ⟨y.map Prod.snd, by rw [if_neg (by decide), container, hy]; rfl, fun rest hrest => ?_⟩
    obtain ⟨⟨_, _⟩, rfl, rfl⟩ := Option.map_eq_some_iff.mp hrest
    obtain ⟨texts, inner, hlisted, _, _, rfl⟩ := items_sound (valueItem_array h) hy
    exact ⟨openBracket :: (inner ++ [closeBracket]), .inr (.inl ⟨texts, inner, hlisted, rfl⟩), by simp⟩

theorem mayMake_always {σ α : Type} {after : σ → α → σ} (steps : List α) (s : σ) :
    MayMake after always s steps := by
  induction steps generalizing s with
  | nil => trivial
  | cons a steps ih => exact ⟨trivial, ih _⟩

/-- The values with so many levels are read, and nothing else. -/
theorem value_reads (levels : Nat) : ReadsText (value levels) (ValueText levels) := by
  induction levels with
  | zero =>
    refine ⟨fun _ => ⟨none, rfl⟩, fun {r rest} h => ?_, fun {w text rest} _ h _ => h.elim⟩
    exact absurd (Except.ok.inj h) (by simp)
  | succ levels ih =>
    -- what is read from the first byte of a value on
    have hread : ∀ r, ∃ y, value (levels + 1) r = .ok y ∧ ∀ rest, y = some rest →
        ∃ w text, Blank w ∧ ValueText (levels + 1) text ∧ r = w ++ (text ++ rest) := by
      intro r
      obtain ⟨w, hw, hr, hhead⟩ := space_split r
      cases hspace : space r with
      | nil =>
        refine ⟨none, ?_, fun rest h => by cases h⟩
        rw [value, hspace]
        rfl
      | cons c tail =>
        have hc : isSpace c = false := hhead c (by rw [hspace]; rfl)
        rw [hspace] at hr
        suffices hfound : ∃ y, value (levels + 1) r = .ok y ∧ ∀ rest, y = some rest →
            ∃ text, ValueText (levels + 1) text ∧ c :: tail = text ++ rest by
          obtain ⟨y, hy, hsound⟩ := hfound
          refine ⟨y, hy, fun rest hrest => ?_⟩
          obtain ⟨text, htext, htail⟩ := hsound rest hrest
          exact ⟨w, text, hw, htext, by rw [hr, htail]⟩
        rw [hr, value_succ_cons hc hw]
        split
        · rename_i hquote
          obtain ⟨y, hy, hfound⟩ := string_finds (fits_none []) (c :: tail)
          refine ⟨y.map Prod.snd, by rw [hy]; rfl, fun rest hrest => ?_⟩
          obtain ⟨⟨out, _⟩, rfl, rfl⟩ := Option.map_eq_some_iff.mp hrest
          obtain ⟨w', text, hw', ⟨codes, htext, _⟩, hstring⟩ := (hfound _).mp rfl
          cases w' with
          | nil => exact ⟨text, .inl ⟨codes, htext⟩, hstring⟩
          | cons b w' =>
            have hb := hw' b List.mem_cons_self
            rw [← (List.cons.inj hstring).1, hc] at hb
            cases hb
        split
        · rename_i hopen
          exact container_reads ih hopen tail
        · obtain ⟨y, hy, hsound⟩ := scalar_reads hc tail
          refine ⟨y, hy, fun rest hrest => ?_⟩
          obtain ⟨text, htext, hr⟩ := hsound rest hrest
          exact ⟨text, .inr (.inr (.inr htext)), hr⟩
    refine ⟨fun r => (hread r).imp fun _ h => h.1, fun {r rest} h => ?_, fun {w text rest} hw h hrest => ?_⟩
    · obtain ⟨y, hy, hsound⟩ := hread r
      exact hsound rest (Except.ok.inj (hy.symm.trans h))
    · rcases h with ⟨codes, hstring⟩ | ⟨texts, inner, hlisted, rfl⟩ | ⟨members, inner, hlisted, rfl⟩ |
        hscalar
      · obtain ⟨body, hbody, rfl⟩ := hstring
        have hread := (string_finds (fits_none []) (quote :: (body ++ [quote]) ++ rest)).eq_some
          (a := ([], rest)) ⟨[], _, blank_nil, ⟨codes, ⟨body, hbody, rfl⟩, rfl⟩, rfl⟩
        show value (levels + 1) (w ++ quote :: (body ++ [quote] ++ rest)) = _
        rw [value_succ_cons rfl hw, if_pos rfl]
        show (string none (quote :: (body ++ [quote]) ++ rest)).map _ = _
        rw [hread]
        rfl
      · have hitems := items_complete rest closeBracket (valueItem_array ih) rfl rfl (by decide)
          (fun _ text h => by
            obtain ⟨c, tail, hc, hspace, _, hne⟩ := valueText_head h.2
            exact ⟨c, tail, h.1.trans hc, hspace, hne⟩) hlisted (s := ()) (mayMake_always texts ())
        show value (levels + 1) (w ++ openBracket :: (inner ++ [closeBracket] ++ rest)) = _
        rw [value_succ_cons rfl hw, if_neg (by decide), if_pos (.inr rfl), if_neg (by decide), container,
          List.append_assoc]
        exact congrArg (·.map (·.map Prod.snd)) hitems
      · have hitems := items_complete rest closeBrace (valueItem_object ih) rfl rfl (by decide)
          (fun _ text h => by
            obtain ⟨tail, htail⟩ := memberText_head h
            exact ⟨quote, tail, htail, rfl, by decide⟩) hlisted (s := ()) (mayMake_always members ())
        show value (levels + 1) (w ++ openBrace :: (inner ++ [closeBrace] ++ rest)) = _
        rw [value_succ_cons rfl hw, if_neg (by decide), if_pos (.inl rfl), if_pos rfl, container,
          List.append_assoc]
        exact congrArg (·.map (·.map Prod.snd)) hitems
      · have hcomplete := scalar_complete hscalar hrest
        obtain ⟨c, tail, rfl, hspace, hquote, ⟨hbrace, hbracket⟩, _⟩ := scalar_first hscalar
        show value (levels + 1) (w ++ c :: (tail ++ rest)) = _
        rw [value_succ_cons hspace hw, if_neg hquote, if_neg (not_or.mpr ⟨hbrace, hbracket⟩)]
        exact hcomplete

end TimeCapsule.Telemetry
