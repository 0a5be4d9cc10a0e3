import TimeCapsule.Lib.Buffer

/-!
# DNS names and records on the wire

A name is a text with dots between its labels; a dot or backslash inside a label is escaped by a
backslash.  Records are appended to a packet buffer of limited capacity.
-/

namespace TimeCapsule.Mdns

open Lib

def bufSize : Nat := 1500
def maxName : Nat := 256
def maxLabel : Nat := 63
def maxTxtString : Nat := 255

def dnsTypeA : UInt16 := 1
def dnsTypePtr : UInt16 := 12
def dnsTypeTxt : UInt16 := 16
def dnsTypeAaaa : UInt16 := 28
def dnsTypeSrv : UInt16 := 33
def dnsTypeAny : UInt16 := 255
def dnsClassIn : UInt16 := 1
def dnsClassAny : UInt16 := 255
def dnsClassQu : UInt16 := 0x8000
def dnsClassInUnique : UInt16 := 0x8001
def dnsFlagQr : UInt16 := 0x8000
def dnsFlagTc : UInt16 := 0x0200
def dnsFlagAa : UInt16 := 0x0400

def sizeofDnsHeader : Nat := 12

def dot : UInt8 := 46
def backslash : UInt8 := 92

/-- A resource record, its owner as a text. -/
structure Record where
  owner : Bytes
  type : UInt16
  rrclass : UInt16
  ttl : UInt32
  rdata : Bytes
deriving DecidableEq, Repr

/-! ## Names -/

/-- The loop of `encode_name`: `label` is the label read so far, `escaped` is set behind a
backslash. -/
def encodeNameFrom (cap : Nat) : (name : Bytes) → (escaped : Bool) → (label : Bytes) → Writer
  | [], true, _ => fun _ => none
  | [], false, label =>
      if label = [] then appendBytes cap [0]
      else
        ((appendBytes cap [UInt8.ofNat label.length]).andThen (appendBytes cap label)).andThen
          (appendBytes cap [0])
  | ch :: rest, true, label =>
      if maxLabel ≤ label.length then fun _ => none
      else encodeNameFrom cap rest false (label ++ [ch])
  | ch :: rest, false, label =>
      if ch = backslash then encodeNameFrom cap rest true label
      else if ch = dot then
        if label = [] then
          if rest = [] then appendBytes cap [0] else fun _ => none
        else
          ((appendBytes cap [UInt8.ofNat label.length]).andThen (appendBytes cap label)).andThen
            (encodeNameFrom cap rest false [])
      else if maxLabel ≤ label.length then fun _ => none
      else encodeNameFrom cap rest false (label ++ [ch])

def encodeName (cap : Nat) (name : Bytes) : Writer :=
  if name = [] then fun _ => none else encodeNameFrom cap name false []

/-- `decode_name`: `rest` is the packet from the position on, `next` the cursor behind the name once
a pointer was followed, `out` the text so far. -/
def decodeNameFrom (packet : Bytes) (outLen : Nat) :
    (fuel : Nat) → (pos : Nat) → (jumps : Nat) → (next : Option Nat) → (out : Bytes) →
      Option (Bytes × Nat)
  | 0, _, _, _, _ => none
  | fuel + 1, pos, jumps, next, out =>
      match packet[pos]? with
      | none => none
      | some len =>
          if len = 0 then
            if out = [] then
              if outLen < 2 then none else some ([dot], next.getD (pos + 1))
            else some (out, next.getD (pos + 1))
          else if len &&& 0xC0 = 0xC0 then
            match packet[pos + 1]? with
            | none => none
            | some low =>
                let ptr := (len &&& 0x3F).toNat * 256 + low.toNat
                if packet.length ≤ ptr || 16 < jumps then none
                else decodeNameFrom packet outLen fuel ptr (jumps + 1) (some (next.getD (pos + 2))) out
          else if maxLabel < len.toNat || packet.length < pos + 1 + len.toNat then none
          else
            match copyLabel outLen (slice packet (pos + 1) (pos + 1 + len.toNat))
                (if out = [] then some out
                else if outLen ≤ out.length + 1 then none else some (out ++ [dot])) with
            | none => none
            | some out => decodeNameFrom packet outLen fuel (pos + 1 + len.toNat) jumps next out
where
  /-- The loop over the bytes of a label. -/
  copyLabel (outLen : Nat) : Bytes → Option Bytes → Option Bytes
    | _, none => none
    | [], some out => some out
    | ch :: rest, some out =>
        if ch = dot || ch = backslash then
          if outLen ≤ out.length + 2 then none
          else copyLabel outLen rest (some (out ++ [backslash, ch]))
        else if outLen ≤ out.length + 1 then none
        else copyLabel outLen rest (some (out ++ [ch]))

/-- The name at the cursor and the cursor behind it.  Every position is visited at most once between
two of the at most 17 pointers followed.  A zero byte in a label ends the text. -/
def decodeName (packet : Bytes) (cursor outLen : Nat) : Option (Bytes × Nat) :=
  (decodeNameFrom packet outLen (18 * (packet.length + 1)) cursor 0 none []).map fun found =>
    (found.1.takeWhile (· != 0), found.2)

/-- The lower case of an ASCII letter. -/
def asciiLower (b : UInt8) : UInt8 := if 65 ≤ b && b ≤ 90 then b + 32 else b

/-- The name without the dots at its end. -/
def withoutTrailingDots (name : Bytes) : Bytes := (name.reverse.dropWhile (· == dot)).reverse

def nameEquals (a b : Bytes) : Bool :=
  (withoutTrailingDots a).map asciiLower == (withoutTrailingDots b).map asciiLower

/-! ## Records -/

def appendU16 (cap : Nat) (value : UInt16) : Writer := appendBytes cap (be16 value.toNat)

def appendU32 (cap : Nat) (value : UInt32) : Writer := appendBytes cap (be32 value.toNat)

/-- Owner, type, class and time to live, which every record starts with. -/
def addRrStart (cap : Nat) (owner : Bytes) (type rrclass : UInt16) (ttl : UInt32) : Writer :=
  writeAll [encodeName cap owner, appendU16 cap type, appendU16 cap rrclass, appendU32 cap ttl]

/-- A length of zero, the data, and then the length of the data in place of the zero. -/
def withRdlength (cap : Nat) (rdata : Writer) : Writer := fun out => do
  let start ← appendU16 cap 0 out
  let full ← rdata start
  return setSlice full out.length (out.length + 2) (be16 (full.length - start.length))

def addRrPtr (cap : Nat) (owner target : Bytes) (ttl : UInt32) : Writer :=
  (addRrStart cap owner dnsTypePtr dnsClassIn ttl).andThen (withRdlength cap (encodeName cap target))

def addRrTxtEmpty (cap : Nat) (owner : Bytes) (ttl : UInt32) : Writer :=
  writeAll [addRrStart cap owner dnsTypeTxt dnsClassInUnique ttl, appendU16 cap 1,
    appendBytes cap [0]]

/-- The loop over the strings of a TXT record, each behind its length. -/
def appendTxtStrings (cap : Nat) : List Bytes → Writer
  | [] => some
  | s :: rest =>
      if maxTxtString < s.length then fun _ => none
      else
        ((appendBytes cap [UInt8.ofNat s.length]).andThen (appendBytes cap s)).andThen
          (appendTxtStrings cap rest)

def addRrTxtStrings (cap : Nat) (owner : Bytes) (ttl : UInt32) (strings : List Bytes) : Writer :=
  (addRrStart cap owner dnsTypeTxt dnsClassInUnique ttl).andThen
    (withRdlength cap (appendTxtStrings cap strings))

def srvData (cap : Nat) (target : Bytes) (port : UInt16) : Writer :=
  writeAll [appendU16 cap 0, appendU16 cap 0, appendU16 cap port, encodeName cap target]

def addRrSrv (cap : Nat) (owner target : Bytes) (port : UInt16) (ttl : UInt32) : Writer :=
  (addRrStart cap owner dnsTypeSrv dnsClassInUnique ttl).andThen
    (withRdlength cap (srvData cap target port))

def addRrA (cap : Nat) (owner : Bytes) (ipv4Addr : Bytes) (ttl : UInt32) : Writer :=
  writeAll [addRrStart cap owner dnsTypeA dnsClassInUnique ttl, appendU16 cap 4,
    appendBytes cap ipv4Addr]

def addRrAaaa (cap : Nat) (owner : Bytes) (ipv6Addr : Bytes) (ttl : UInt32) : Writer :=
  writeAll [addRrStart cap owner dnsTypeAaaa dnsClassInUnique ttl, appendU16 cap 16,
    appendBytes cap ipv6Addr]

/-! ## What the writers append -/

/-- The labels of a name, each behind its length. -/
def wireNameFrom : (name : Bytes) → (escaped : Bool) → (label : Bytes) → Option Bytes
  | [], true, _ => none
  | [], false, label =>
      if label = [] then some [0] else some ((UInt8.ofNat label.length :: label) ++ [0])
  | ch :: rest, true, label =>
      if maxLabel ≤ label.length then none else wireNameFrom rest false (label ++ [ch])
  | ch :: rest, false, label =>
      if ch = backslash then wireNameFrom rest true label
      else if ch = dot then
        if label = [] then if rest = [] then some [0] else none
        else (wireNameFrom rest false []).map ((UInt8.ofNat label.length :: label) ++ ·)
      else if maxLabel ≤ label.length then none
      else wireNameFrom rest false (label ++ [ch])

/-- The encoding of a name, if it is well formed. -/
def wireName (name : Bytes) : Option Bytes :=
  if name = [] then none else wireNameFrom name false []

theorem renders_label (cap : Nat) (label : Bytes) :
    Renders cap ((appendBytes cap [UInt8.ofNat label.length]).andThen (appendBytes cap label))
      (some (UInt8.ofNat label.length :: label)) :=
  (renders_appendBytes cap _).andThen (renders_appendBytes cap _)

theorem renders_encodeNameFrom (cap : Nat) (name : Bytes) (escaped : Bool) (label : Bytes) :
    Renders cap (encodeNameFrom cap name escaped label) (wireNameFrom name escaped label) := by
  induction name generalizing escaped label with
  | nil =>
    cases escaped with
    | true => exact renders_none
    | false =>
      unfold encodeNameFrom wireNameFrom
      by_cases h : label = []
      · rw [if_pos h, if_pos h]
        exact renders_appendBytes cap _
      · rw [if_neg h, if_neg h]
        exact (renders_label cap label).andThen (renders_appendBytes cap [0])
  | cons ch rest ih =>
    cases escaped with
    | true =>
      unfold encodeNameFrom wireNameFrom
      by_cases h : maxLabel ≤ label.length
      · rw [if_pos h, if_pos h]
        exact renders_none
      · rw [if_neg h, if_neg h]
        exact ih false _
    | false =>
      unfold encodeNameFrom wireNameFrom
      by_cases hb : ch = backslash
      · rw [if_pos hb, if_pos hb]
        exact ih true label
      rw [if_neg hb, if_neg hb]
      by_cases hd : ch = dot
      · rw [if_pos hd, if_pos hd]
        by_cases h : label = []
        · rw [if_pos h, if_pos h]
          split
          · exact renders_appendBytes cap _
          · exact renders_none
        · rw [if_neg h, if_neg h]
          exact (renders_label cap label).andThen (ih false [])
      rw [if_neg hd, if_neg hd]
      by_cases h : maxLabel ≤ label.length
      · rw [if_pos h, if_pos h]
        exact renders_none
      · rw [if_neg h, if_neg h]
        exact ih false _

theorem renders_encodeName (cap : Nat) (name : Bytes) :
    Renders cap (encodeName cap name) (wireName name) := by
  unfold encodeName wireName
  split
  · exact renders_none
  · exact renders_encodeNameFrom cap name false []

def Record.encode (r : Record) : Option Bytes :=
  (wireName r.owner).map (· ++ be16 r.type.toNat ++ be16 r.rrclass.toNat ++ be32 r.ttl.toNat ++
    be16 r.rdata.length ++ r.rdata)

theorem renders_addRrStart (cap : Nat) (owner : Bytes) (type rrclass : UInt16) (ttl : UInt32) :
    Renders cap (addRrStart cap owner type rrclass ttl)
      ((wireName owner).map (· ++ be16 type.toNat ++ be16 rrclass.toNat ++ be32 ttl.toNat)) := by
  unfold addRrStart
  refine ((renders_encodeName cap owner).cons ((renders_appendBytes cap _).cons
    ((renders_appendBytes cap _).cons ((renders_appendBytes cap _).cons renders_nil)))).congr ?_
  cases wireName owner <;> simp

/-- The patched length is the length of the data. -/
theorem renders_withRdlength {cap : Nat} {p : Writer} {x : Option Bytes} (hp : Renders cap p x) :
    Renders cap (withRdlength cap p) (x.map fun a => be16 a.length ++ a) := by
  intro out hout
  unfold withRdlength appendU16
  cases hstart : appendBytes cap (be16 (0 : UInt16).toNat) out with
  | none =>
    rw [appendBytes_eq_none] at hstart
    cases x with
    | none => rfl
    | some a =>
      rw [Option.map_some, Option.bind_some, eq_comm]
      show appendBytes cap (be16 a.length ++ a) out = none
      rw [appendBytes_eq_none]
      simp only [List.length_append, length_be16] at hstart ⊢
      omega
  | some start =>
    obtain ⟨hlen, rfl⟩ := appendBytes_eq_some.mp hstart
    rw [length_be16] at hlen
    have hfull := hp (out ++ be16 (0 : UInt16).toNat) (by simpa using hlen)
    cases x with
    | none =>
      show (p _).bind _ = none
      rw [hfull]
      rfl
    | some a =>
      rw [Option.bind_some] at hfull
      show (p _).bind _ = appendBytes cap (be16 a.length ++ a) out
      by_cases hfit : out.length + 2 + a.length ≤ cap
      · rw [hfull, appendBytes_eq_some.mpr ⟨by simpa using hfit, rfl⟩, Option.bind_some, Option.pure_def, eq_comm,
          appendBytes_eq_some]
        constructor
        · simp only [List.length_append, length_be16]
          omega
        · have hdata : out.length + (2 + a.length) - (out.length + 2) = a.length := by omega
          have htail : (be16 0 ++ a).drop 2 = a := rfl
          simp [setSlice, hdata, htail]
      · rw [hfull, appendBytes_eq_none.mpr (by simp; omega), Option.bind_none, eq_comm,
          appendBytes_eq_none]
        simp only [List.length_append, length_be16]
        omega

/-! ### Each record function appends the encoding of its record -/

def ptrRecord (owner : Bytes) (target : Bytes) (ttl : UInt32) : Option Record :=
  (wireName target).map fun rdata => ⟨owner, dnsTypePtr, dnsClassIn, ttl, rdata⟩

def txtRecord (owner : Bytes) (rdata : Bytes) (ttl : UInt32) : Record :=
  ⟨owner, dnsTypeTxt, dnsClassInUnique, ttl, rdata⟩

def srvRdata (target : Bytes) (port : UInt16) : Option Bytes :=
  (wireName target).map fun name => be16 0 ++ be16 0 ++ be16 port.toNat ++ name

def srvRecord (owner target : Bytes) (port : UInt16) (ttl : UInt32) : Option Record :=
  (srvRdata target port).map fun rdata => ⟨owner, dnsTypeSrv, dnsClassInUnique, ttl, rdata⟩

def aRecord (owner addr : Bytes) (ttl : UInt32) : Record :=
  ⟨owner, dnsTypeA, dnsClassInUnique, ttl, addr⟩

def aaaaRecord (owner addr : Bytes) (ttl : UInt32) : Record :=
  ⟨owner, dnsTypeAaaa, dnsClassInUnique, ttl, addr⟩

/-- The data of a TXT record: the strings behind their lengths. -/
def txtRdata : List Bytes → Option Bytes
  | [] => some []
  | s :: rest =>
      if maxTxtString < s.length then none
      else (txtRdata rest).map ((UInt8.ofNat s.length :: s) ++ ·)

section Records

variable (cap : Nat) (owner : Bytes) (ttl : UInt32)

theorem renders_appendTxtStrings (strings : List Bytes) :
    Renders cap (appendTxtStrings cap strings) (txtRdata strings) := by
  induction strings with
  | nil => exact renders_nil
  | cons s rest ih =>
    unfold appendTxtStrings txtRdata
    by_cases h : maxTxtString < s.length
    · rw [if_pos h, if_pos h]
      exact renders_none
    · rw [if_neg h, if_neg h]
      exact (renders_label cap s).andThen ih

theorem renders_srvData (target : Bytes) (port : UInt16) :
    Renders cap (srvData cap target port) (srvRdata target port) := by
  unfold srvData
  refine ((renders_appendBytes cap _).cons ((renders_appendBytes cap _).cons
    ((renders_appendBytes cap _).cons ((renders_encodeName cap target).cons renders_nil)))).congr ?_
  unfold srvRdata
  cases wireName target <;> simp

/-- The start of a record and its data behind its length make up its encoding. -/
theorem Record.encode_eq (type rrclass : UInt16) (rdata : Option Bytes) :
    (((wireName owner).map (· ++ be16 type.toNat ++ be16 rrclass.toNat ++ be32 ttl.toNat)).bind
        fun start => (rdata.map fun a => be16 a.length ++ a).map (start ++ ·)) =
      (rdata.map fun a => Record.mk owner type rrclass ttl a).bind Record.encode := by
  unfold Record.encode
  cases rdata with
  | none => cases wireName owner <;> rfl
  | some a => cases h : wireName owner <;> simp [h]

theorem renders_addRrPtr (target : Bytes) :
    Renders cap (addRrPtr cap owner target ttl) ((ptrRecord owner target ttl).bind Record.encode) :=
  ((renders_addRrStart cap owner _ _ ttl).andThen
    (renders_withRdlength (renders_encodeName cap target))).congr (Record.encode_eq ..)

theorem renders_addRrSrv (target : Bytes) (port : UInt16) :
    Renders cap (addRrSrv cap owner target port ttl)
      ((srvRecord owner target port ttl).bind Record.encode) :=
  ((renders_addRrStart cap owner _ _ ttl).andThen
    (renders_withRdlength (renders_srvData cap target port))).congr (Record.encode_eq ..)

theorem renders_addRrTxtStrings (strings : List Bytes) :
    Renders cap (addRrTxtStrings cap owner ttl strings)
      (((txtRdata strings).map (txtRecord owner · ttl)).bind Record.encode) :=
  ((renders_addRrStart cap owner _ _ ttl).andThen
    (renders_withRdlength (renders_appendTxtStrings cap strings))).congr (Record.encode_eq ..)

/-- A record whose data has a fixed length. -/
theorem renders_fixed (type : UInt16) {n : UInt16} {rdata : Bytes} (hlen : rdata.length = n.toNat) :
    Renders cap (writeAll [addRrStart cap owner type dnsClassInUnique ttl, appendU16 cap n,
      appendBytes cap rdata]) (Record.encode ⟨owner, type, dnsClassInUnique, ttl, rdata⟩) := by
  refine ((renders_addRrStart cap owner _ _ ttl).cons ((renders_appendBytes cap _).cons
    ((renders_appendBytes cap _).cons renders_nil))).congr ?_
  unfold Record.encode
  rw [hlen]
  cases wireName owner <;> simp

theorem renders_addRrTxtEmpty :
    Renders cap (addRrTxtEmpty cap owner ttl) (txtRecord owner [0] ttl).encode :=
  renders_fixed cap owner ttl dnsTypeTxt (n := 1) rfl

theorem renders_addRrA {addr : Bytes} (h : addr.length = 4) :
    Renders cap (addRrA cap owner addr ttl) (aRecord owner addr ttl).encode :=
  renders_fixed cap owner ttl dnsTypeA (n := 4) h

theorem renders_addRrAaaa {addr : Bytes} (h : addr.length = 16) :
    Renders cap (addRrAaaa cap owner addr ttl) (aaaaRecord owner addr ttl).encode :=
  renders_fixed cap owner ttl dnsTypeAaaa (n := 16) h

end Records

end TimeCapsule.Mdns
