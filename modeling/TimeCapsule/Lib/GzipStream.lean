import TimeCapsule.Lib.Gzip

/-!
# Gzip as a stream

A decoder that is given the beginning of a member raises no error: it returns the output so far, and
only its `eof` attribute tells that the end of the stream was not reached.  The last section has such
a decoder for stored deflate blocks.
-/

namespace TimeCapsule.Lib

/-- What of a member comes before its trailer: whole headers, and whole deflate streams with the data
they stand for. -/
structure GzipFormat where
  header : Bytes → Prop
  deflated : Bytes → Bytes → Prop

/-- `z` is one whole member for `x`, closed by the checksum and the length of `x`. -/
def GzipFormat.Member (format : GzipFormat) (z x : Bytes) : Prop :=
  ∃ head body, format.header head ∧ format.deflated body x ∧ z = head ++ body ++ Stored.trailer x

/-- What the attributes of a decompressor say once it was given `z`: with `eof` a whole member was
read, its trailer was compared, and the rest is unused; without it `z` ends before any member does. -/
structure GzipCodec.Streams (codec : GzipCodec) (format : GzipFormat) (eof : Bytes → Bool) :
    Prop where
  ended : ∀ {z r}, codec.decompress z = some r → eof z = true →
    ∃ m, z = m ++ r.unused ∧ format.Member m r.output
  unused : ∀ {z r}, codec.decompress z = some r → eof z = false → r.unused = []
  not_ended : ∀ {z r}, codec.decompress z = some r → eof z = false →
    ∀ m x, m <+: z → ¬ format.Member m x

namespace Stored

/-! ## Whole streams of stored blocks -/

theorem inflate_append (rest : Bytes) (k : Nat) : ∀ (fuel : Nat) {z : Bytes} {r : Inflated},
    inflate fuel z = some r → inflate (fuel + k) (z ++ rest) = some ⟨r.output, r.unused ++ rest⟩ := by
  intro fuel
  induction fuel with
  | zero => intro z r h; cases h
  | succ fuel ih =>
    intro z r h
    rcases z with _ | ⟨final, _ | ⟨l0, _ | ⟨l1, _ | ⟨n0, _ | ⟨n1, z⟩⟩⟩⟩⟩
    case cons.cons.cons.cons.cons =>
      rw [show fuel + 1 + k = fuel + k + 1 by omega]
      simp only [inflate, List.cons_append] at h ⊢
      obtain ⟨⟨hsum, hle⟩, h⟩ := Option.ite_none_right_eq_some.mp h
      rw [if_pos ⟨hsum, by rw [List.length_append]; omega⟩, List.take_append_of_le_length hle,
        List.drop_append_of_le_length hle]
      by_cases h1 : final = 1
      · rw [if_pos h1] at h ⊢
        rw [← Option.some.inj h]
      · rw [if_neg h1] at h ⊢
        obtain ⟨h0, h⟩ := Option.ite_none_right_eq_some.mp h
        obtain ⟨r', hr', rfl⟩ := Option.map_eq_some_iff.mp h
        rw [if_pos h0, ih hr']
        rfl
    all_goals cases h

/-- What was inflated is a whole stream in front of what is unused. -/
theorem inflate_split : ∀ (fuel : Nat) {z : Bytes} {r : Inflated}, inflate fuel z = some r →
    ∃ body, z = body ++ r.unused ∧ inflate body.length body = some ⟨r.output, []⟩ := by
  intro fuel
  induction fuel with
  | zero => intro z r h; cases h
  | succ fuel ih =>
    intro z r h
    rcases z with _ | ⟨final, _ | ⟨l0, _ | ⟨l1, _ | ⟨n0, _ | ⟨n1, z⟩⟩⟩⟩⟩
    case cons.cons.cons.cons.cons =>
      simp only [inflate] at h
      obtain ⟨⟨hsum, hle⟩, h⟩ := Option.ite_none_right_eq_some.mp h
      generalize hlen : l0.toNat + 256 * l1.toNat = len at *
      have htake : (z.take len).length = len := by simp [hle]
      by_cases h1 : final = 1
      · rw [if_pos h1] at h
        obtain rfl := Option.some.inj h
        refine ⟨final :: l0 :: l1 :: n0 :: n1 :: z.take len, by simp, ?_⟩
        simp only [List.length_cons, inflate]
        rw [hlen, if_pos ⟨hsum, htake.ge⟩, if_pos h1, List.take_of_length_le htake.le,
          List.drop_of_length_le htake.le]
      · rw [if_neg h1] at h
        obtain ⟨h0, h⟩ := Option.ite_none_right_eq_some.mp h
        obtain ⟨r', hr', rfl⟩ := Option.map_eq_some_iff.mp h
        obtain ⟨body, hbody, hinflate⟩ := ih hr'
        refine ⟨final :: l0 :: l1 :: n0 :: n1 :: (z.take len ++ body), ?_, ?_⟩
        · simp only [List.cons_append, List.append_assoc, ← hbody, List.take_append_drop]
        · have hmore := inflate_append [] (len + 4) body.length hinflate
          rw [List.append_nil] at hmore
          simp only [List.length_cons, List.length_append, htake, inflate]
          rw [hlen, if_pos ⟨hsum, by omega⟩, if_neg h1, if_pos h0, List.take_left' htake,
            List.drop_left' htake, show len + body.length + 4 = body.length + (len + 4) by omega,
            hmore]
          rfl
    all_goals cases h

/-- Headers without optional fields, and streams of stored blocks. -/
def format : GzipFormat where
  header head := ∃ rest, rest.length = 6 ∧ head = 0x1f :: 0x8b :: 0x08 :: 0 :: rest
  deflated body x := inflate body.length body = some ⟨x, []⟩

theorem gunzip_header {head rest : Bytes} (h : format.header head) :
    gunzip (head ++ rest) = (inflate rest.length rest).bind fun r =>
      if r.unused.take 8 = trailer r.output then some ⟨r.output, r.unused.drop 8⟩ else none := by
  obtain ⟨fields, hlen, rfl⟩ := h
  rcases fields with _ | ⟨a, _ | ⟨b, _ | ⟨c, _ | ⟨d, _ | ⟨e, _ | ⟨f, _ | ⟨g, fields⟩⟩⟩⟩⟩⟩⟩ <;>
    simp at hlen
  rfl

theorem gunzip_eq_some {z : Bytes} {r : Inflated} (h : gunzip z = some r) :
    ∃ m, z = m ++ r.unused ∧ format.Member m r.output := by
  obtain ⟨head, rest, hhead, rfl⟩ : ∃ head rest, format.header head ∧ z = head ++ rest := by
    unfold gunzip at h
    split at h
    · next a b c d e f rest =>
      exact ⟨[0x1f, 0x8b, 0x08, 0, a, b, c, d, e, f], rest, ⟨[a, b, c, d, e, f], rfl, rfl⟩, rfl⟩
    · cases h
  rw [gunzip_header hhead] at h
  obtain ⟨r', hr', h⟩ := Option.bind_eq_some_iff.mp h
  obtain ⟨htrailer, h⟩ := Option.ite_none_right_eq_some.mp h
  obtain rfl := Option.some.inj h
  obtain ⟨body, hbody, hinflate⟩ := inflate_split _ hr'
  refine ⟨head ++ body ++ trailer r'.output, ?_, head, body, hhead, hinflate, rfl⟩
  rw [← htrailer, List.append_assoc, List.append_assoc, List.take_append_drop, hbody]

theorem gunzip_member {m x : Bytes} (h : format.Member m x) (rest : Bytes) :
    gunzip (m ++ rest) = some ⟨x, rest⟩ := by
  obtain ⟨head, body, hhead, hbody, rfl⟩ := h
  have hmore := inflate_append (trailer x ++ rest) (trailer x ++ rest).length _ hbody
  rw [List.append_assoc, List.append_assoc, gunzip_header hhead, List.length_append, hmore,
    List.nil_append, Option.bind_some, List.take_left' (length_trailer x),
    List.drop_left' (length_trailer x), if_pos rfl]

/-! ## A streaming decoder -/

/-- The decoder of stored blocks that also takes the beginnings of the member for `x`; the data starts
behind ten bytes of the header and five of the first block. -/
def streaming (x : Bytes) : GzipCodec where
  decompress z :=
    (gunzip z).or (if z <+: gzip x then some ⟨(z.drop 15).take x.length, []⟩ else none)
  compress := gzip

def reachedEnd (z : Bytes) : Bool := (gunzip z).isSome

theorem streaming_streams (x : Bytes) : (streaming x).Streams format reachedEnd where
  ended {z r} h hend := by
    obtain ⟨r', hr'⟩ := Option.isSome_iff_exists.mp hend
    have : r' = r := by simpa [streaming, hr'] using h
    exact gunzip_eq_some (this ▸ hr')
  unused {z r} h hend := by
    have hnone : gunzip z = none := by simpa [reachedEnd] using hend
    simp only [streaming, hnone, Option.none_or, Option.ite_none_right_eq_some,
      Option.some.injEq] at h
    rw [← h.2]
  not_ended {z r} h hend m y hm hmember := by
    obtain ⟨rest, rfl⟩ := hm
    rw [reachedEnd, gunzip_member hmember] at hend
    cases hend

end Stored

end TimeCapsule.Lib
