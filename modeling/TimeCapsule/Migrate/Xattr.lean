import TimeCapsule.Lib.Bytes
import TimeCapsule.Lib.Json

/-!
# Native attributes

The names of the attributes a file has natively, the fragments a stream is split into, and what the
file server's backend makes of them.
-/

namespace TimeCapsule.Migrate

open Lib

/-- The name of an attribute or of a directory entry, without its terminating zero. -/
abbrev Name := Bytes

/-- `TC_HFS_XATTR_SIZE` -/
def hfsXattrSize : Nat := 3802

/-- `TC_HFS_STREAM_XATTRS` -/
def hfsStreamXattrs : Nat := 35

/-- `TC_STREAM_PREFIX` -/
def streamPrefixText : Bytes := ascii "user.DosStream."

/-- `TC_EXT_PREFIX` -/
def extPrefixText : Bytes := ascii "user.DosStreamExt."

/-- `TC_STREAM_SUFFIX` -/
def streamSuffix : Bytes := ascii ":$DATA"

def comApple : Bytes := ascii "com.apple."

/-- `TC_AFPINFO_XATTR` -/
def afpinfoXattr : Name := streamPrefixText ++ ascii "AFP_AfpInfo" ++ streamSuffix

/-- `TC_NETATALK_META_XATTR` -/
def netatalkMetaXattr : Name := ascii "user.org.netatalk.Metadata"

/-- `TC_FINDERINFO_XATTR` -/
def finderinfoXattr : Name := ascii "com.apple.FinderInfo"

/-- `TC_RESOURCEFORK_XATTR` -/
def resourceforkXattr : Name := ascii "com.apple.ResourceFork"

/-- `TC_RESOURCE_MARKER_XATTR` -/
def resourceMarkerXattr : Name := ascii "user.TimeCapsuleSMB.ResourceMigration"

/-! ## Streams -/

def tcStreamAnchor (name : Name) : Bool := streamPrefixText.isPrefixOf name

def tcStreamExtent (name : Name) : Bool := extPrefixText.isPrefixOf name

/-- The part of an anchor's name behind the prefix. -/
def rawStreamName (anchor : Name) : Name := anchor.drop streamPrefixText.length

/-- `"%s%zu.%s"` of the prefix, the number of an extent and the raw name. -/
def extentName (i : Nat) (raw : Name) : Name :=
  extPrefixText ++ ascii (toString i) ++ ascii "." ++ raw

/-- The native attribute that a stream of the migrated database belongs in. -/
def tcAppleNativeName (anchor : Name) : Option Name :=
  let raw := rawStreamName anchor
  if raw.length ≤ streamSuffix.length || !comApple.isPrefixOf raw || !streamSuffix.isSuffixOf raw
  then none
  else some (raw.take (raw.length - streamSuffix.length))

/-- The number of extents behind a first fragment, which keeps it in its last byte. -/
def extentCount (fragment : Bytes) : Nat := (fragment.getLast?.map (·.toNat)).getD 0

/-! ## The backend -/

/-- The native attribute behind the name that the file server asks for. -/
def tcAppleStreamNativeName (name : Name) : Option Name :=
  if name.length ≤ streamPrefixText.length + streamSuffix.length ||
      !(streamPrefixText ++ comApple).isPrefixOf name || !streamSuffix.isSuffixOf name
  then none
  else some ((name.drop streamPrefixText.length).take
    (name.length - streamPrefixText.length - streamSuffix.length))

def tcFruitOwnedNativeXattr (name : Name) : Bool :=
  name = finderinfoXattr || name = resourceforkXattr

/-- The name under which the file server sees a native attribute as a stream. -/
def streamNameOf (entry : Name) : Name := streamPrefixText ++ entry ++ streamSuffix

/-- `xattr_tdb_fgetxattr` on a native volume, into a buffer that is long enough. -/
def xattrTdbFgetxattr (attr : Name → Option Bytes) (name : Name) : Option Bytes :=
  match tcAppleStreamNativeName name with
  | some native =>
      -- the last byte stands for the extents that streams of other names have
      if tcFruitOwnedNativeXattr native then none else (attr native).map (· ++ [0])
  | none => if name = resourceforkXattr then none else attr name

def appendOnce (kept : List Name) (name : Name) : List Name :=
  if kept.contains name then kept else kept ++ [name]

/-- Every name once, where it came first. -/
def tcAirportFlistxattr (names : List Name) : List Name := names.foldl appendOnce []

def tcNativeListWithAppleStreams (names : List Name) : List Name :=
  (tcAirportFlistxattr names).flatMap fun entry =>
    if tcFruitOwnedNativeXattr entry then []
    else if comApple.isPrefixOf entry then [entry, streamNameOf entry]
    else [entry]

/-! ## Names -/

section Names

variable {name native raw raw' : Name} {i j : Nat}

theorem streamAnchor_iff : tcStreamAnchor name = true ↔ ∃ raw, name = streamPrefixText ++ raw := by
  rw [tcStreamAnchor, List.isPrefixOf_iff_prefix]
  constructor
  · rintro ⟨raw, rfl⟩
    exact ⟨raw, rfl⟩
  · rintro ⟨raw, rfl⟩
    exact ⟨raw, rfl⟩

example : tcStreamAnchor afpinfoXattr = true := by decide +kernel

theorem rawStreamName_append : rawStreamName (streamPrefixText ++ raw) = raw := List.drop_left

/-- The migrator and the backend agree on the attribute behind a stream. -/
theorem appleNativeName_eq (h : tcStreamAnchor name = true) :
    tcAppleNativeName name = tcAppleStreamNativeName name := by
  obtain ⟨raw, rfl⟩ := streamAnchor_iff.mp h
  have happle : (streamPrefixText ++ comApple).isPrefixOf (streamPrefixText ++ raw) =
      comApple.isPrefixOf raw := by
    rw [Bool.eq_iff_iff, List.isPrefixOf_iff_prefix, List.isPrefixOf_iff_prefix,
      List.prefix_append_right_inj]
  have hlen : (streamPrefixText ++ raw).length = streamPrefixText.length + raw.length :=
    List.length_append
  by_cases hraw : raw.length ≤ streamSuffix.length
  · have hlong : (streamPrefixText ++ raw).length ≤
        streamPrefixText.length + streamSuffix.length := by omega
    simp only [tcAppleNativeName, tcAppleStreamNativeName, rawStreamName_append, hraw, hlong,
      decide_true, Bool.true_or, if_true]
  · have hlong : ¬ (streamPrefixText ++ raw).length ≤
        streamPrefixText.length + streamSuffix.length := by omega
    have hsuffix : streamSuffix.isSuffixOf (streamPrefixText ++ raw) =
        streamSuffix.isSuffixOf raw := by
      rw [Bool.eq_iff_iff, List.isSuffixOf_iff_suffix, List.isSuffixOf_iff_suffix]
      constructor
      · intro hs
        exact List.suffix_of_suffix_length_le hs (List.suffix_append _ _) (by omega)
      · intro hs
        exact hs.trans (List.suffix_append _ _)
    have htake : (streamPrefixText ++ raw).length - streamPrefixText.length - streamSuffix.length =
        raw.length - streamSuffix.length := by omega
    simp only [tcAppleNativeName, tcAppleStreamNativeName, rawStreamName_append, hraw, hlong,
      happle, hsuffix, htake, List.drop_left]

/-- An Apple stream is named after its native attribute. -/
theorem appleNativeName_eq_some (h : tcStreamAnchor name = true)
    (hnative : tcAppleNativeName name = some native) :
    name = streamNameOf native ∧ comApple.isPrefixOf native = true := by
  obtain ⟨raw, rfl⟩ := streamAnchor_iff.mp h
  rw [tcAppleNativeName, rawStreamName_append] at hnative
  split at hnative
  · exact absurd hnative (by simp)
  · rename_i hguard
    simp only [Bool.or_eq_true, decide_eq_true_eq, Bool.not_eq_true', not_or,
      Bool.not_eq_false] at hguard
    obtain ⟨⟨hlong, happle⟩, hsuffix⟩ := hguard
    obtain rfl := Option.some.inj hnative
    obtain ⟨front, rfl⟩ := List.isSuffixOf_iff_suffix.mp hsuffix
    have hfront : (front ++ streamSuffix).take
        ((front ++ streamSuffix).length - streamSuffix.length) = front := by
      rw [List.length_append, Nat.add_sub_cancel, List.take_left]
    rw [hfront]
    refine ⟨by rw [streamNameOf, List.append_assoc], ?_⟩
    obtain ⟨rest, hrest⟩ := List.isPrefixOf_iff_prefix.mp happle
    apply List.isPrefixOf_iff_prefix.mpr
    -- the suffix starts with a colon, so it cannot reach into `com.apple.`
    rcases List.prefix_or_prefix_of_prefix ⟨rest, hrest⟩ (List.prefix_append front streamSuffix) with
      hp | hp
    · exact hp
    · obtain ⟨missing, hmissing⟩ := hp
      cases missing with
      | nil =>
        rw [List.append_nil] at hmissing
        exact hmissing ▸ List.prefix_rfl
      | cons b missing =>
        have hjoined : front ++ (b :: missing ++ rest) = front ++ streamSuffix := by
          rw [← List.append_assoc, hmissing, hrest]
        have hcolon : b :: missing ++ rest = streamSuffix := List.append_cancel_left hjoined
        have hb : b = (58 : UInt8) := (List.cons.inj hcolon).1
        have hmem : b ∈ comApple := by
          rw [← hmissing]
          simp
        rw [hb] at hmem
        exact absurd hmem (by decide)

/-- The stop between the number of an extent and the raw name. -/
def fullStop : UInt8 := 46

theorem digits_before_stop : ∀ i < hfsStreamXattrs, fullStop ∉ ascii (toString i) := by decide +kernel

theorem digits_injective : ∀ i < hfsStreamXattrs, ∀ j < hfsStreamXattrs,
    ascii (toString i) = ascii (toString j) → i = j := by
  decide +kernel

/-- Extents of different streams, or with different numbers, have different names. -/
theorem extentName_inj (hi : i < hfsStreamXattrs) (hj : j < hfsStreamXattrs)
    (h : extentName i raw = extentName j raw') : i = j ∧ raw = raw' := by
  have hstop : ∀ k < hfsStreamXattrs, ∀ rest : Name,
      (ascii (toString k) ++ ascii "." ++ rest).takeWhile (· ≠ fullStop) = ascii (toString k) := by
    intro k hk rest
    rw [List.append_assoc, List.takeWhile_append_of_pos]
    · exact List.append_nil _
    · intro b hb
      exact decide_eq_true fun heq => digits_before_stop k hk (heq ▸ hb)
  simp only [extentName, List.append_assoc, List.append_cancel_left_eq] at h
  have hdigits := congrArg (List.takeWhile (· ≠ fullStop)) h
  rw [← List.append_assoc, ← List.append_assoc, hstop i hi, hstop j hj] at hdigits
  obtain rfl := digits_injective i hi j hj hdigits
  exact ⟨rfl, List.append_cancel_left (List.append_cancel_left h)⟩

theorem anchor_ne_extentName (h : tcStreamAnchor name = true) : name ≠ extentName i raw := by
  rintro rfl
  obtain ⟨raw', hraw⟩ := streamAnchor_iff.mp h
  have htake := congrArg (List.take streamPrefixText.length) hraw
  rw [List.take_left, extentName, List.append_assoc, List.append_assoc,
    List.take_append_of_le_length (by decide)] at htake
  exact absurd htake (by decide)

end Names

/-! ## Fragments -/

/-- So many extents from number `i` on, one behind the other. -/
def joinedExtents (attr : Name → Option Bytes) (raw : Name) : (count i : Nat) → Option Bytes
  | 0, _ => some []
  | count + 1, i =>
      (attr (extentName i raw)).bind fun extent =>
        (joinedExtents attr raw count (i + 1)).map (extent ++ ·)

/-- The bytes of a stream, joined from its anchor and its extents. -/
def joinedStream (attr : Name → Option Bytes) (anchor : Name) : Option Bytes :=
  (attr anchor).bind fun first =>
    if first = [] ∨ hfsStreamXattrs ≤ extentCount first then none
    else
      (joinedExtents attr (rawStreamName anchor) (extentCount first) 1).map (first.dropLast ++ ·)

section Fragments

variable {attr attr' : Name → Option Bytes} {raw anchor : Name} {count i : Nat} {bytes : Bytes}

theorem joinedExtents_congr (h : ∀ j, i ≤ j → j < i + count →
    attr (extentName j raw) = attr' (extentName j raw)) :
    joinedExtents attr raw count i = joinedExtents attr' raw count i := by
  induction count generalizing i with
  | zero => rfl
  | succ count ih =>
    rw [joinedExtents, joinedExtents, h i (Nat.le_refl i) (by omega),
      ih fun j hj hlt => h j (by omega) (by omega)]

/-- Every extent that is joined is there. -/
theorem joinedExtents_present (h : joinedExtents attr raw count i = some bytes) {j : Nat}
    (hj : i ≤ j) (hlt : j < i + count) : ∃ extent, attr (extentName j raw) = some extent := by
  induction count generalizing i bytes with
  | zero => omega
  | succ count ih =>
    obtain ⟨extent, hextent, hrest⟩ := Option.bind_eq_some_iff.mp h
    obtain ⟨rest, hrest, -⟩ := Option.map_eq_some_iff.mp hrest
    by_cases hi : j = i
    · exact ⟨extent, hi ▸ hextent⟩
    · exact ih hrest (by omega) (by omega)

theorem joinedStream_eq_some (h : joinedStream attr anchor = some bytes) :
    ∃ first extents, attr anchor = some first ∧ first ≠ [] ∧ extentCount first < hfsStreamXattrs ∧
      joinedExtents attr (rawStreamName anchor) (extentCount first) 1 = some extents ∧
      bytes = first.dropLast ++ extents := by
  obtain ⟨first, hfirst, hjoined⟩ := Option.bind_eq_some_iff.mp h
  by_cases hbad : first = [] ∨ hfsStreamXattrs ≤ extentCount first
  · rw [if_pos hbad] at hjoined
    exact absurd hjoined (by simp)
  · rw [if_neg hbad] at hjoined
    obtain ⟨extents, hextents, rfl⟩ := Option.map_eq_some_iff.mp hjoined
    rw [not_or, Nat.not_le] at hbad
    exact ⟨first, extents, hfirst, hbad.1, hbad.2, hextents, rfl⟩

theorem joinedStream_of_extents {first extents : Bytes} (hfirst : attr anchor = some first)
    (hne : first ≠ []) (hcount : extentCount first < hfsStreamXattrs)
    (hextents : joinedExtents attr (rawStreamName anchor) (extentCount first) 1 = some extents) :
    joinedStream attr anchor = some (first.dropLast ++ extents) := by
  have hgood : ¬ (first = [] ∨ hfsStreamXattrs ≤ extentCount first) := by
    rw [not_or, Nat.not_le]
    exact ⟨hne, hcount⟩
  rw [joinedStream, hfirst, Option.bind_some, if_neg hgood, hextents, Option.map_some]

end Fragments

end TimeCapsule.Migrate
