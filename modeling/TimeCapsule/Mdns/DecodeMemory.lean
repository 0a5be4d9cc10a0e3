import TimeCapsule.Lib.Prog
import TimeCapsule.Mdns.Names

/-!
# The name decoder and its memory

`decode_name` with every access to the packet, the output buffer and the cursor as an operation of
its own.  No bytes in the packet take it outside its buffers or keep it busy, and it computes what
`decodeName` says.
-/

namespace TimeCapsule.Mdns

open Lib Prog

/-! ## The accesses -/

inductive Access where
  | readPacket (i : Nat)
  | writeOut (i : Nat) (ch : UInt8)
  | setCursor (n : Nat)
deriving DecidableEq, Repr

abbrev Access.Ans : Access → Type
  | .readPacket _ => UInt8
  | .writeOut _ _ => Unit
  | .setCursor _ => Unit

/-- Inside a packet and an output buffer of these lengths. -/
def Access.InBounds (packetLen outLen : Nat) : Access → Prop
  | .readPacket i => i < packetLen
  | .writeOut i _ => i < outLen
  | .setCursor _ => True

/-- The memory behind `out`, which does not end with the buffer, and `*cursor`. -/
structure Memory where
  out : Nat → UInt8
  cursor : Nat

/-- The fault is the byte that a read behind the packet finds. -/
def memoryOf (packet : Bytes) : Kernel Access Access.Ans Memory UInt8 where
  step
    | .readPacket i, fault, w => (packet[i]?.getD fault, w)
    | .writeOut i ch, _, w => ((), { w with out := fun j => if j = i then ch else w.out j })
    | .setCursor n, _, w => ((), { w with cursor := n })

/-! ## The program -/

/-- How `decode_name` returns; `running` is a loop that was given too little fuel. -/
inductive DecodeReturn where
  | ok
  | failed
  | running
deriving DecidableEq, Repr

/-- The variables of the loop. -/
structure DecodeState where
  pos : Nat
  outPos : Nat
  jumped : Bool
  jumpCount : Nat
  nextCursor : Nat
deriving DecidableEq, Repr

/-- The rest of the function, unless the output buffer was too small. -/
def orFail (r : Option Nat) (k : Nat → Prog Access Access.Ans DecodeReturn) :
    Prog Access Access.Ans DecodeReturn :=
  r.elim (pure .failed) k

/-- The loop over the bytes of a label, from `src` on. -/
def copyLabelBytes (outLen : Nat) :
    (count src outPos : Nat) → Prog Access Access.Ans (Option Nat)
  | 0, _, outPos => pure (some outPos)
  | count + 1, src, outPos => do
      let ch ← Prog.op (.readPacket src)
      if ch = dot || ch = backslash then
        if outLen ≤ outPos + 2 then pure none
        else do
          let _ ← Prog.op (.writeOut outPos backslash)
          let _ ← Prog.op (.writeOut (outPos + 1) ch)
          copyLabelBytes outLen count (src + 1) (outPos + 2)
      else if outLen ≤ outPos + 1 then pure none
      else do
        let _ ← Prog.op (.writeOut outPos ch)
        copyLabelBytes outLen count (src + 1) (outPos + 1)

/-- The dot between two labels. -/
def separateLabel (outLen outPos : Nat) : Prog Access Access.Ans (Option Nat) :=
  if outPos = 0 then pure (some outPos)
  else if outLen ≤ outPos + 1 then pure none
  else do
    let _ ← Prog.op (.writeOut outPos dot)
    pure (some (outPos + 1))

/-- The branch of the root label. -/
def endOfName (outLen outPos nextCursor : Nat) : Prog Access Access.Ans DecodeReturn :=
  if outPos = 0 then
    if outLen < 2 then pure .failed
    else do
      let _ ← Prog.op (.writeOut 0 dot)
      let _ ← Prog.op (.writeOut 1 0)
      let _ ← Prog.op (.setCursor nextCursor)
      pure .ok
  else do
    let _ ← Prog.op (.writeOut outPos 0)
    let _ ← Prog.op (.setCursor nextCursor)
    pure .ok

/-- The loop of `decode_name`. -/
def decodeLoop (packetLen outLen : Nat) :
    (fuel : Nat) → DecodeState → Prog Access Access.Ans DecodeReturn
  | 0, _ => pure .running
  | fuel + 1, s =>
      if packetLen ≤ s.pos then pure .failed
      else do
        let len ← Prog.op (.readPacket s.pos)
        if len = 0 then
          endOfName outLen s.outPos (if s.jumped then s.nextCursor else s.pos + 1)
        else if len &&& 0xC0 = 0xC0 then
          if packetLen ≤ s.pos + 1 then pure .failed
          else do
            let low ← Prog.op (.readPacket (s.pos + 1))
            let ptr := (len &&& 0x3F).toNat * 256 + low.toNat
            if packetLen ≤ ptr || 16 < s.jumpCount then pure .failed
            else
              decodeLoop packetLen outLen fuel
                { s with
                  pos := ptr
                  jumped := true
                  jumpCount := s.jumpCount + 1
                  nextCursor := if s.jumped then s.nextCursor else s.pos + 2 }
        else if maxLabel < len.toNat || packetLen < s.pos + 1 + len.toNat then pure .failed
        else do
          let separated ← separateLabel outLen s.outPos
          orFail separated fun outPos => do
            let copied ← copyLabelBytes outLen len.toNat (s.pos + 1) outPos
            orFail copied fun outPos =>
              decodeLoop packetLen outLen fuel
                { s with
                  pos := s.pos + 1 + len.toNat
                  outPos := outPos
                  nextCursor := if s.jumped then s.nextCursor else s.pos + 1 + len.toNat }

/-- `decode_name`, with the fuel that its positions and the limit on pointers allow for. -/
def decodeNameProg (packetLen outLen cursor : Nat) : Prog Access Access.Ans DecodeReturn :=
  decodeLoop packetLen outLen (18 * (packetLen + 1))
    { pos := cursor, outPos := 0, jumped := false, jumpCount := 0, nextCursor := cursor }

/-! ## Bounds -/

section Bounds

variable {packetLen outLen : Nat}

/-- Where the next byte goes: inside the buffer, or at the start of one that may be empty. -/
def Room (outLen outPos : Nat) : Prop := outPos = 0 ∨ outPos < outLen

theorem room_none : ∀ n ∈ (none : Option Nat), Room outLen n :=
  fun n hn => absurd hn (Option.not_mem_none n)

theorem failed_ne_running : DecodeReturn.failed ≠ .running := by decide

theorem ok_ne_running : DecodeReturn.ok ≠ .running := by decide

theorem copyLabelBytes_inBounds {count src outPos : Nat} (hsrc : src + count ≤ packetLen)
    (hroom : Room outLen outPos) :
    (copyLabelBytes outLen count src outPos).UsesTo (Access.InBounds packetLen outLen)
      fun r => ∀ n ∈ r, Room outLen n := by
  induction count generalizing src outPos with
  | zero =>
    intro n hn
    exact Option.some.inj hn ▸ hroom
  | succ count ih =>
    have hread : src < packetLen := by omega
    refine ⟨hread, fun ch => ?_⟩
    show UsesTo _ _ (ite _ _ _)
    by_cases hescape : ch = dot || ch = backslash
    · rw [if_pos hescape]
      by_cases hfull : outLen ≤ outPos + 2
      · rw [if_pos hfull]
        exact room_none
      · rw [if_neg hfull]
        have hfirst : outPos < outLen := by omega
        have hsecond : outPos + 1 < outLen := by omega
        exact ⟨hfirst, fun _ => ⟨hsecond, fun _ => ih (by omega) (Or.inr (by omega))⟩⟩
    · rw [if_neg hescape]
      by_cases hfull : outLen ≤ outPos + 1
      · rw [if_pos hfull]
        exact room_none
      · rw [if_neg hfull]
        have hwrite : outPos < outLen := by omega
        exact ⟨hwrite, fun _ => ih (by omega) (Or.inr (by omega))⟩

theorem separateLabel_inBounds {outPos : Nat} (hroom : Room outLen outPos) :
    (separateLabel outLen outPos).UsesTo (Access.InBounds packetLen outLen)
      fun r => ∀ n ∈ r, Room outLen n := by
  unfold separateLabel
  split
  · intro n hn
    exact Option.some.inj hn ▸ hroom
  · split
    · exact room_none
    · have hwrite : outPos < outLen := by omega
      refine ⟨hwrite, fun _ n hn => ?_⟩
      exact Option.some.inj hn ▸ Or.inr (by omega)

theorem endOfName_inBounds {outPos nextCursor : Nat} (hroom : Room outLen outPos) :
    (endOfName outLen outPos nextCursor).UsesTo (Access.InBounds packetLen outLen)
      (· ≠ .running) := by
  unfold endOfName
  split
  · split
    · exact failed_ne_running
    · have hfirst : 0 < outLen := by omega
      have hsecond : 1 < outLen := by omega
      exact ⟨hfirst, fun _ => ⟨hsecond, fun _ => ⟨trivial, fun _ => ok_ne_running⟩⟩⟩
  · have hwrite : outPos < outLen := hroom.resolve_left ‹_›
    exact ⟨hwrite, fun _ => ⟨trivial, fun _ => ok_ne_running⟩⟩

theorem orFail_inBounds {r : Option Nat} {k : Nat → Prog Access Access.Ans DecodeReturn}
    (h : ∀ n ∈ r, (k n).UsesTo (Access.InBounds packetLen outLen) (· ≠ .running)) :
    (orFail r k).UsesTo (Access.InBounds packetLen outLen) (· ≠ .running) := by
  cases r with
  | none => exact failed_ne_running
  | some n => exact h n rfl

/-- Whatever the packet holds, the loop stays inside its buffers, and its fuel lasts: between two
pointers the position grows. -/
theorem decodeLoop_inBounds {fuel : Nat} {s : DecodeState} (hjumps : s.jumpCount ≤ 17)
    (hfuel : (17 - s.jumpCount) * (packetLen + 1) + (packetLen - s.pos) < fuel)
    (hroom : Room outLen s.outPos) :
    (decodeLoop packetLen outLen fuel s).UsesTo (Access.InBounds packetLen outLen)
      (· ≠ .running) := by
  induction fuel generalizing s with
  | zero => exact absurd hfuel (Nat.not_lt_zero _)
  | succ fuel ih =>
    unfold decodeLoop
    by_cases hend : packetLen ≤ s.pos
    · rw [if_pos hend]
      exact failed_ne_running
    rw [if_neg hend]
    have hread : s.pos < packetLen := by omega
    refine ⟨hread, fun len => ?_⟩
    show UsesTo _ _ (ite _ _ _)
    by_cases hroot : len = 0
    · rw [if_pos hroot]
      exact endOfName_inBounds hroom
    rw [if_neg hroot]
    by_cases htag : len &&& 0xC0 = 0xC0
    · rw [if_pos htag]
      by_cases hlow : packetLen ≤ s.pos + 1
      · rw [if_pos hlow]
        exact failed_ne_running
      rw [if_neg hlow]
      have hread' : s.pos + 1 < packetLen := by omega
      refine ⟨hread', fun low => ?_⟩
      show UsesTo _ _ (ite _ _ _)
      by_cases hptr : packetLen ≤ (len &&& 0x3F).toNat * 256 + low.toNat || 16 < s.jumpCount
      · rw [if_pos hptr]
        exact failed_ne_running
      · rw [if_neg hptr]
        rw [Bool.or_eq_true, decide_eq_true_eq, decide_eq_true_eq, not_or] at hptr
        have hjump : (17 - s.jumpCount) * (packetLen + 1) =
            (17 - (s.jumpCount + 1)) * (packetLen + 1) + (packetLen + 1) := by
          have hsucc : 17 - s.jumpCount = (17 - (s.jumpCount + 1)) + 1 := by omega
          rw [hsucc, Nat.succ_mul]
        apply ih
        · show s.jumpCount + 1 ≤ 17
          omega
        · show (17 - (s.jumpCount + 1)) * (packetLen + 1) + (packetLen - _) < fuel
          omega
        · exact hroom
    rw [if_neg htag]
    by_cases hbounds : maxLabel < len.toNat || packetLen < s.pos + 1 + len.toNat
    · rw [if_pos hbounds]
      exact failed_ne_running
    rw [if_neg hbounds]
    rw [Bool.or_eq_true, decide_eq_true_eq, decide_eq_true_eq, not_or] at hbounds
    refine (separateLabel_inBounds hroom).bind fun r hr => orFail_inBounds fun outPos hout => ?_
    refine (copyLabelBytes_inBounds (by omega) (hr outPos hout)).bind
      fun r hr => orFail_inBounds fun outPos hout => ?_
    apply ih
    · exact hjumps
    · show (17 - s.jumpCount) * (packetLen + 1) + (packetLen - (s.pos + 1 + len.toNat)) < fuel
      omega
    · exact hr outPos hout

theorem decodeNameProg_inBounds (packetLen outLen cursor : Nat) :
    (decodeNameProg packetLen outLen cursor).UsesTo (Access.InBounds packetLen outLen)
      (· ≠ .running) := by
  apply decodeLoop_inBounds
  · exact Nat.zero_le _
  · show (17 - 0) * (packetLen + 1) + (packetLen - cursor) < 18 * (packetLen + 1)
    omega
  · exact Or.inl rfl

end Bounds

/-! ## What it computes -/

/-- The cursor behind the name that starts at a position, however it goes on behind a pointer. -/
inductive InPlaceEnd (packet : Bytes) : (pos : Nat) → (next : Nat) → Prop where
  | root {pos : Nat} (h : packet[pos]? = some 0) : InPlaceEnd packet pos (pos + 1)
  | pointer {pos : Nat} {len low : UInt8} (h : packet[pos]? = some len)
      (htag : len &&& 0xC0 = 0xC0) (hlow : packet[pos + 1]? = some low) :
      InPlaceEnd packet pos (pos + 2)
  | label {pos next : Nat} {len : UInt8} (h : packet[pos]? = some len) (hpos : 0 < len.toNat)
      (hle : len.toNat ≤ maxLabel) (hfit : pos + 1 + len.toNat ≤ packet.length)
      (hrest : InPlaceEnd packet (pos + 1 + len.toNat) next) : InPlaceEnd packet pos next

theorem InPlaceEnd.bounds {packet : Bytes} {pos next : Nat} (h : InPlaceEnd packet pos next) :
    pos < next ∧ next ≤ packet.length := by
  induction h with
  | root h =>
    have hlt := (List.getElem?_eq_some_iff.mp h).1
    omega
  | pointer _ _ hlow =>
    have hlt := (List.getElem?_eq_some_iff.mp hlow).1
    omega
  | label _ _ _ _ _ ih => omega

/-- The buffer starts with the text. -/
def Memory.Starts (w : Memory) (text : Bytes) : Prop :=
  ∀ i ch, text[i]? = some ch → w.out i = ch

theorem Memory.starts_nil (w : Memory) : w.Starts [] := by
  intro i ch h
  cases h

/-- The byte behind the text makes it longer. -/
theorem Memory.Starts.write {w : Memory} {text : Bytes} (h : w.Starts text) (ch : UInt8) :
    Memory.Starts { w with out := fun j => if j = text.length then ch else w.out j }
      (text ++ [ch]) := by
  intro i b hb
  show (if i = text.length then ch else w.out i) = b
  by_cases hi : i = text.length
  · rw [hi, List.getElem?_concat_length] at hb
    rw [if_pos hi]
    exact Option.some.inj hb
  · have hlt : i < text.length := by
      have hlen := (List.getElem?_eq_some_iff.mp hb).1
      rw [List.length_append, List.length_singleton] at hlen
      omega
    rw [List.getElem?_append_left hlt] at hb
    rw [if_neg hi]
    exact h i b hb

section Result

variable {packet : Bytes} {outLen : Nat} {w : Memory}

/-- What is true at every end of the program, whatever lies behind the packet. -/
abbrev EndsWith {α : Type} (packet : Bytes) (p : Prog Access Access.Ans α)
    (Q : α → Memory → Prop) (w : Memory) : Prop :=
  p.wp (memoryOf packet) (fun _ _ _ => True) (fun _ _ => True) Q w

theorem endsWith_read {α : Type} {i : Nat} {ch : UInt8}
    {k : UInt8 → Prog Access Access.Ans α} {Q : α → Memory → Prop} (h : packet[i]? = some ch)
    (hk : EndsWith packet (k ch) Q w) : EndsWith packet (.call (.readPacket i) k) Q w := by
  intro fault _
  refine ⟨trivial, ?_⟩
  show EndsWith packet (k (packet[i]?.getD fault)) Q w
  rw [h]
  exact hk

theorem endsWith_write {α : Type} {i : Nat} {ch : UInt8} {k : Unit → Prog Access Access.Ans α}
    {Q : α → Memory → Prop}
    (hk : EndsWith packet (k ()) Q { w with out := fun j => if j = i then ch else w.out j }) :
    EndsWith packet (.call (.writeOut i ch) k) Q w :=
  fun _ _ => ⟨trivial, hk⟩

/-- The part of the text that was asked for is in the buffer, or there was no room for it. -/
structure Copied (expected : Option Bytes) (cursor : Nat) (r : Option Nat) (w : Memory) : Prop where
  length : r = expected.map List.length
  starts : ∀ text ∈ expected, w.Starts text
  cursor : w.cursor = cursor

theorem copied_some {text : Bytes} (h : w.Starts text) :
    Copied (some text) w.cursor (some text.length) w where
  length := rfl
  starts _ ht := Option.some.inj ht ▸ h
  cursor := rfl

theorem copied_none : Copied none w.cursor none w where
  length := rfl
  starts _ ht := absurd ht (Option.not_mem_none _)
  cursor := rfl

theorem copyLabelBytes_ends {count src : Nat} {out : Bytes} (hsrc : src + count ≤ packet.length)
    (h : w.Starts out) :
    EndsWith packet (copyLabelBytes outLen count src out.length)
      (Copied (decodeNameFrom.copyLabel outLen (slice packet src (src + count)) (some out)) w.cursor)
      w := by
  induction count generalizing src out w with
  | zero =>
    have hslice : slice packet src (src + 0) = [] := by simp [slice]
    rw [hslice]
    exact copied_some h
  | succ count ih =>
    have hread : src < packet.length := by omega
    have hnext : src + 1 + count ≤ packet.length := by omega
    have hslice : slice packet src (src + (count + 1)) =
        packet[src] :: slice packet (src + 1) (src + 1 + count) := by
      rw [slice_add, slice_add, List.drop_eq_getElem_cons hread, List.take_succ_cons]
    rw [hslice]
    apply endsWith_read (List.getElem?_eq_getElem hread)
    show EndsWith packet (ite _ _ _) _ w
    unfold decodeNameFrom.copyLabel
    by_cases hescape : packet[src] = dot || packet[src] = backslash
    · rw [if_pos hescape, if_pos hescape]
      by_cases hfull : outLen ≤ out.length + 2
      · rw [if_pos hfull, if_pos hfull]
        exact copied_none
      · rw [if_neg hfull, if_neg hfull]
        apply endsWith_write
        apply endsWith_write
        have htwo := (h.write backslash).write packet[src]
        rw [List.length_append, List.length_singleton, List.append_assoc] at htwo
        have hrec := ih hnext htwo
        rw [List.length_append] at hrec
        exact hrec
    · rw [if_neg hescape, if_neg hescape]
      by_cases hfull : outLen ≤ out.length + 1
      · rw [if_pos hfull, if_pos hfull]
        exact copied_none
      · rw [if_neg hfull, if_neg hfull]
        apply endsWith_write
        have hrec := ih hnext (h.write packet[src])
        rw [List.length_append] at hrec
        exact hrec

theorem copyLabel_none (outLen : Nat) (label : Bytes) :
    decodeNameFrom.copyLabel outLen label none = none := by
  cases label <;> rfl

theorem separateLabel_ends {out : Bytes} (h : w.Starts out) :
    EndsWith packet (separateLabel outLen out.length)
      (Copied (if out = [] then some out
        else if outLen ≤ out.length + 1 then none else some (out ++ [dot])) w.cursor) w := by
  unfold separateLabel
  by_cases hempty : out = []
  · rw [if_pos hempty, if_pos (List.length_eq_zero_iff.mpr hempty)]
    exact copied_some h
  · rw [if_neg hempty, if_neg (List.length_eq_zero_iff.not.mpr hempty)]
    by_cases hfull : outLen ≤ out.length + 1
    · rw [if_pos hfull, if_pos hfull]
      exact copied_none
    · rw [if_neg hfull, if_neg hfull]
      apply endsWith_write
      have hdot := copied_some (h.write dot)
      rw [List.length_append] at hdot
      exact hdot

/-- The end of the function, as the decoder on byte lists has it. -/
structure Decoded (expected : Option (Bytes × Nat)) (cursor : Nat) (r : DecodeReturn) (w : Memory) :
    Prop where
  returned : r = if expected.isSome then .ok else .failed
  text : ∀ found ∈ expected, w.Starts (found.1 ++ [0])
  cursor : w.cursor = (expected.map Prod.snd).getD cursor

theorem decoded_none : Decoded none w.cursor .failed w where
  returned := rfl
  text _ hfound := absurd hfound (Option.not_mem_none _)
  cursor := rfl

theorem endOfName_ends {out : Bytes} {next : Nat} (h : w.Starts out) :
    EndsWith packet (endOfName outLen out.length next)
      (Decoded (if out = [] then if outLen < 2 then none else some ([dot], next)
        else some (out, next)) w.cursor) w := by
  unfold endOfName
  by_cases hempty : out = []
  · rw [if_pos hempty, if_pos (List.length_eq_zero_iff.mpr hempty)]
    by_cases hfull : outLen < 2
    · rw [if_pos hfull, if_pos hfull]
      exact decoded_none
    · rw [if_neg hfull, if_neg hfull]
      apply endsWith_write
      apply endsWith_write
      refine fun _ _ => ⟨trivial, rfl, ?_, rfl⟩
      intro found hfound
      rw [← Option.some.inj hfound]
      exact (w.starts_nil.write dot).write 0
  · rw [if_neg hempty, if_neg (List.length_eq_zero_iff.not.mpr hempty)]
    apply endsWith_write
    refine fun _ _ => ⟨trivial, rfl, ?_, rfl⟩
    intro found hfound
    rw [← Option.some.inj hfound]
    exact h.write 0

/-- The cursor behind the name once a pointer was followed. -/
def DecodeState.next (s : DecodeState) : Option Nat := if s.jumped then some s.nextCursor else none

theorem DecodeState.next_getD (s : DecodeState) (here : Nat) :
    s.next.getD here = if s.jumped then s.nextCursor else here := by
  unfold DecodeState.next
  split <;> rfl

theorem orFail_ends {expected : Option Bytes} {cursor : Nat} {r : Option Nat}
    {k : Nat → Prog Access Access.Ans DecodeReturn} {Q : DecodeReturn → Memory → Prop}
    (h : Copied expected cursor r w) (hnone : expected = none → Q .failed w)
    (hsome : ∀ text, expected = some text → w.Starts text → EndsWith packet (k text.length) Q w) :
    EndsWith packet (orFail r k) Q w := by
  rw [h.length]
  cases hexpected : expected with
  | none => exact hnone hexpected
  | some text => exact hsome text hexpected (h.starts text hexpected)

/-- The loop and the decoder on byte lists go through the same positions. -/
theorem decodeLoop_ends {fuel : Nat} {s : DecodeState} {out : Bytes}
    (hout : s.outPos = out.length) (h : w.Starts out) :
    EndsWith packet (decodeLoop packet.length outLen fuel s)
      (fun r w' => r ≠ .running → Decoded
        (decodeNameFrom packet outLen fuel s.pos s.jumpCount s.next out) w.cursor r w') w := by
  induction fuel generalizing s out w with
  | zero => exact fun hrunning => absurd rfl hrunning
  | succ fuel ih =>
    unfold decodeLoop decodeNameFrom
    by_cases hend : packet.length ≤ s.pos
    · rw [if_pos hend, List.getElem?_eq_none hend]
      exact fun _ => decoded_none
    rw [if_neg hend]
    obtain ⟨len, hread⟩ : ∃ len, packet[s.pos]? = some len :=
      ⟨_, List.getElem?_eq_getElem (by omega)⟩
    apply endsWith_read hread
    rw [hread]
    show EndsWith packet (ite _ _ _) _ w
    dsimp only
    by_cases hroot : len = 0
    · rw [if_pos hroot, if_pos hroot, hout, DecodeState.next_getD]
      exact wp_mono (endOfName_ends h) fun _ _ hdecoded _ => hdecoded
    rw [if_neg hroot, if_neg hroot]
    by_cases htag : len &&& 0xC0 = 0xC0
    · rw [if_pos htag, if_pos htag]
      by_cases hlow : packet.length ≤ s.pos + 1
      · rw [if_pos hlow, List.getElem?_eq_none hlow]
        exact fun _ => decoded_none
      rw [if_neg hlow]
      obtain ⟨low, hread'⟩ : ∃ low, packet[s.pos + 1]? = some low :=
        ⟨_, List.getElem?_eq_getElem (by omega)⟩
      apply endsWith_read hread'
      rw [hread']
      show EndsWith packet (ite _ _ _) _ w
      dsimp only
      by_cases hptr : packet.length ≤ (len &&& 0x3F).toNat * 256 + low.toNat || 16 < s.jumpCount
      · rw [if_pos hptr, if_pos hptr]
        exact fun _ => decoded_none
      · rw [if_neg hptr, if_neg hptr, DecodeState.next_getD]
        exact ih (s := { s with
          pos := (len &&& 0x3F).toNat * 256 + low.toNat
          jumped := true
          jumpCount := s.jumpCount + 1
          nextCursor := if s.jumped then s.nextCursor else s.pos + 2 }) hout h
    rw [if_neg htag, if_neg htag]
    by_cases hbounds : maxLabel < len.toNat || packet.length < s.pos + 1 + len.toNat
    · rw [if_pos hbounds, if_pos hbounds]
      exact fun _ => decoded_none
    rw [if_neg hbounds, if_neg hbounds, hout]
    rw [Bool.or_eq_true, decide_eq_true_eq, decide_eq_true_eq, not_or] at hbounds
    refine wp_bind.mpr (wp_mono (separateLabel_ends h) fun r w' hseparated => ?_)
    refine orFail_ends hseparated ?_ ?_
    · intro hnone
      rw [hnone, copyLabel_none]
      exact fun _ => hseparated.cursor ▸ decoded_none
    · intro start hstart hw
      rw [hstart]
      refine wp_bind.mpr (wp_mono (copyLabelBytes_ends (by omega) hw) fun r w'' hcopied => ?_)
      rw [← hseparated.cursor]
      refine orFail_ends hcopied ?_ ?_
      · intro hnone
        rw [hnone]
        exact fun _ => hcopied.cursor ▸ decoded_none
      · intro text htext hw
        rw [htext, ← hcopied.cursor]
        dsimp only
        have hrec := ih (s := { s with
          pos := s.pos + 1 + len.toNat
          outPos := text.length
          nextCursor := if s.jumped then s.nextCursor else s.pos + 1 + len.toNat }) rfl hw
        have hnext : DecodeState.next { s with
            pos := s.pos + 1 + len.toNat
            outPos := text.length
            nextCursor := if s.jumped then s.nextCursor else s.pos + 1 + len.toNat } = s.next := by
          unfold DecodeState.next
          cases s.jumped <;> rfl
        rw [hnext] at hrec
        exact hrec

end Result

/-! ## The decoder on byte lists -/

section ByteLists

variable {packet : Bytes} {outLen : Nat}

theorem copyLabel_room {label out text : Bytes}
    (h : decodeNameFrom.copyLabel outLen label (some out) = some text)
    (hroom : Room outLen out.length) : Room outLen text.length := by
  induction label generalizing out with
  | nil => exact Option.some.inj h ▸ hroom
  | cons ch rest ih =>
    unfold decodeNameFrom.copyLabel at h
    split at h
    · split at h
      · cases h
      · refine ih h (Or.inr ?_)
        rw [List.length_append]
        show out.length + 2 < outLen
        omega
    · split at h
      · cases h
      · refine ih h (Or.inr ?_)
        rw [List.length_append]
        show out.length + 1 < outLen
        omega

/-- A decoded text leaves room for the zero behind it, and the cursor behind the name is the one
before the first pointer. -/
theorem decodeNameFrom_ends {fuel pos jumps : Nat} {next : Option Nat} {out : Bytes}
    {found : Bytes × Nat} (hroom : Room outLen out.length)
    (h : decodeNameFrom packet outLen fuel pos jumps next out = some found) :
    found.1.length < outLen ∧
      (next = some found.2 ∨ (next = none ∧ InPlaceEnd packet pos found.2)) := by
  induction fuel generalizing pos jumps next out with
  | zero => cases h
  | succ fuel ih =>
    unfold decodeNameFrom at h
    cases hlen : packet[pos]? with
    | none =>
      rw [hlen] at h
      cases h
    | some len =>
      rw [hlen] at h
      dsimp only at h
      by_cases hroot : len = 0
      · rw [if_pos hroot] at h
        have hnext : next = some (next.getD (pos + 1)) ∨
            (next = none ∧ InPlaceEnd packet pos (next.getD (pos + 1))) := by
          cases next with
          | none => exact Or.inr ⟨rfl, InPlaceEnd.root (hroot ▸ hlen)⟩
          | some n => exact Or.inl rfl
        by_cases hempty : out = []
        · rw [if_pos hempty] at h
          split at h
          · cases h
          · rw [← Option.some.inj h]
            refine ⟨?_, hnext⟩
            show 1 < outLen
            omega
        · rw [if_neg hempty] at h
          rw [← Option.some.inj h]
          exact ⟨hroom.resolve_left (List.length_eq_zero_iff.not.mpr hempty), hnext⟩
      rw [if_neg hroot] at h
      by_cases htag : len &&& 0xC0 = 0xC0
      · rw [if_pos htag] at h
        cases hlow : packet[pos + 1]? with
        | none =>
          rw [hlow] at h
          cases h
        | some low =>
          rw [hlow] at h
          dsimp only at h
          split at h
          · cases h
          · obtain ⟨hlength, hnext | ⟨hnext, -⟩⟩ := ih hroom h
            · refine ⟨hlength, ?_⟩
              cases next with
              | none => exact Or.inr ⟨rfl, Option.some.inj hnext ▸ InPlaceEnd.pointer hlen htag hlow⟩
              | some n => exact Or.inl hnext
            · cases hnext
      rw [if_neg htag] at h
      split at h
      · cases h
      · next hbounds =>
        rw [Bool.or_eq_true, decide_eq_true_eq, decide_eq_true_eq, not_or] at hbounds
        have hpos : 0 < len.toNat := by
          rw [Nat.pos_iff_ne_zero]
          exact fun hzero => hroot (UInt8.toNat_inj.mp hzero)
        split at h
        · cases h
        · next text hcopy =>
          have hcopied : Room outLen text.length := by
            by_cases hempty : out = []
            · rw [if_pos hempty] at hcopy
              exact copyLabel_room hcopy hroom
            · rw [if_neg hempty] at hcopy
              by_cases hfull : outLen ≤ out.length + 1
              · rw [if_pos hfull, copyLabel_none] at hcopy
                cases hcopy
              · rw [if_neg hfull] at hcopy
                refine copyLabel_room hcopy (Or.inr ?_)
                rw [List.length_append, List.length_singleton]
                omega
          obtain ⟨hlength, hnext⟩ := ih hcopied h
          refine ⟨hlength, hnext.imp_right fun hrest => ⟨hrest.1, ?_⟩⟩
          exact InPlaceEnd.label hlen hpos (by omega) (by omega) hrest.2

/-- The text of a C string is in the buffer when a longer one is. -/
theorem Memory.Starts.takeWhile {w : Memory} {text : Bytes} (h : w.Starts (text ++ [0])) :
    w.Starts (text.takeWhile (· != 0) ++ [0]) := by
  intro i ch hch
  apply h i ch
  clear h
  induction text generalizing i with
  | nil => exact hch
  | cons first rest ih =>
    by_cases hzero : first = 0
    · rw [hzero] at hch ⊢
      cases i with
      | zero => exact hch
      | succ i => cases hch
    · rw [List.takeWhile_cons, if_pos (bne_iff_ne.mpr hzero)] at hch
      cases i with
      | zero => exact hch
      | succ i => exact ih i hch

/-- The program leaves behind what the decoder on byte lists finds. -/
theorem decodeNameProg_returns {w w' : Memory} {r : DecodeReturn}
    (h : (decodeNameProg packet.length outLen w.cursor).Returns (memoryOf packet)
      (fun _ _ _ => True) w r w') :
    Decoded (decodeNameFrom packet outLen (18 * (packet.length + 1)) w.cursor 0 none []) w.cursor
      r w' :=
  wp_returns (decodeLoop_ends rfl w.starts_nil) h ((decodeNameProg_inBounds _ _ _).returns h)

theorem decodeNameProg_decodes {w w' : Memory} {r : DecodeReturn}
    (h : (decodeNameProg packet.length outLen w.cursor).Returns (memoryOf packet)
      (fun _ _ _ => True) w r w') :
    Decoded (decodeName packet w.cursor outLen) w.cursor r w' := by
  have hdecoded := decodeNameProg_returns h
  refine ⟨?_, ?_, ?_⟩
  · rw [hdecoded.returned, decodeName, Option.isSome_map]
  · intro name hname
    obtain ⟨found, hfound, rfl⟩ := Option.map_eq_some_iff.mp hname
    exact (hdecoded.text found hfound).takeWhile
  · rw [hdecoded.cursor, decodeName, Option.map_map]
    rfl

/-- Nothing behind the output buffer is written. -/
theorem decodeNameProg_frame {w w' : Memory} {r : DecodeReturn}
    (h : (decodeNameProg packet.length outLen w.cursor).Returns (memoryOf packet)
      (fun _ _ _ => True) w r w') {i : Nat} (hi : outLen ≤ i) : w'.out i = w.out i := by
  have htrans : ∀ {u v w : Memory}, v.out i = u.out i → w.out i = v.out i → w.out i = u.out i :=
    fun huv hvw => hvw.trans huv
  refine Uses.visits (G := fun w w' => w'.out i = w.out i)
    (decodeNameProg_inBounds packet.length outLen w.cursor).uses (fun _ => rfl) htrans ?_ h.visits
  intro op fault u hop
  cases op with
  | readPacket j => rfl
  | writeOut j ch =>
    have hj : j < outLen := hop
    show (if i = j then ch else u.out i) = u.out i
    rw [if_neg (by omega)]
  | setCursor n => rfl

/-- The decoder returns, stays inside the packet and the output buffer, ends the text with a zero and
moves the cursor behind the name in its place. -/
theorem decode_name_stays_in_bounds (packet : Bytes) (outLen : Nat) (w : Memory) :
    (decodeNameProg packet.length outLen w.cursor).Uses (Access.InBounds packet.length outLen) ∧
    ∀ r w', (decodeNameProg packet.length outLen w.cursor).Returns (memoryOf packet)
        (fun _ _ _ => True) w r w' →
      r ≠ .running ∧ (∀ i, outLen ≤ i → w'.out i = w.out i) ∧
      (r = .ok → (∃ n < outLen, w'.out n = 0) ∧ InPlaceEnd packet w.cursor w'.cursor ∧
        w.cursor < w'.cursor ∧ w'.cursor ≤ packet.length) := by
  have huses := decodeNameProg_inBounds packet.length outLen w.cursor
  refine ⟨huses.uses, ?_⟩
  intro r w' h
  refine ⟨huses.returns h, fun i hi => decodeNameProg_frame h hi, ?_⟩
  intro hok
  have hdecoded := decodeNameProg_returns h
  generalize hexpected : decodeNameFrom packet outLen _ w.cursor 0 none [] = expected at hdecoded
  cases expected with
  | none =>
    have hfailed := hdecoded.returned
    rw [hok] at hfailed
    cases hfailed
  | some found =>
    obtain ⟨hlength, hnext⟩ := decodeNameFrom_ends (Or.inl rfl) hexpected
    have hend : InPlaceEnd packet w.cursor w'.cursor := by
      rw [hdecoded.cursor]
      exact (hnext.resolve_left (Option.some_ne_none _).symm).2
    refine ⟨⟨found.1.length, hlength, ?_⟩, hend, hend.bounds⟩
    exact hdecoded.text found rfl _ _ List.getElem?_concat_length

end ByteLists

/-- The result and the memory when the name behind a pointer is decoded. -/
def behindPointer : DecodeReturn × Memory :=
  exec (memoryOf pointerPacket) 255 (decodeNameProg pointerPacket.length maxName 5)
    ⟨fun _ => 255, 5⟩

theorem decode_name_behind_pointer : behindPointer.2.cursor = 9 ∧
    (∃ n < maxName, behindPointer.2.out n = 0) ∧
    InPlaceEnd pointerPacket 5 behindPointer.2.cursor ∧ 5 < behindPointer.2.cursor ∧
    behindPointer.2.cursor ≤ pointerPacket.length := by
  have hreturns : (decodeNameProg pointerPacket.length maxName 5).Returns (memoryOf pointerPacket)
      (fun _ _ _ => True) ⟨fun _ => 255, 5⟩ behindPointer.1 behindPointer.2 :=
    exec_returns fun _ _ => trivial
  have hok : behindPointer.1 = .ok := by decide
  exact ⟨by decide,
    ((decode_name_stays_in_bounds pointerPacket maxName ⟨fun _ => 255, 5⟩).2 _ _ hreturns).2.2 hok⟩

end TimeCapsule.Mdns
