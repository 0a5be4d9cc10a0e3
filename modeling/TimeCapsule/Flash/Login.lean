import TimeCapsule.Lib.Search
import TimeCapsule.Lib.Checksum

/-!
# The LOGIN script

The stock and the patched boot script, how a decompressed image is classified by the scripts it
holds, and what patching the stock script does to that classification.
-/

namespace TimeCapsule.Flash

open Lib

/-! ## The scripts -/

def loginScriptHead : Bytes :=
  ascii "#!/bin/sh\n" ++ ascii "#\n" ++
  ascii "# $NetBSD: LOGIN,v 1.7 2002/03/22 04:33:57 thorpej Exp $\n" ++
  ascii "#\n" ++ ascii "\n" ++
  ascii "# PROVIDE: LOGIN\n" ++ ascii "# REQUIRE: DAEMON\n" ++ ascii "\n"

def stockLoginNetbsd4Dummy : Bytes :=
  loginScriptHead ++
  ascii "#\tThis is a dummy dependency to ensure user services such as xdm,\n" ++
  ascii "#\tinetd, cron and kerberos are started after everything else, incase\n" ++
  ascii "#\tthe administrator has increased the system security level and\n" ++
  ascii "#\twants to delay user logins until the system is (almost) fully\n" ++
  ascii "#\toperational.\n"

def patchedLoginScript : Bytes :=
  loginScriptHead ++
  ascii "if [ \"$1\" = start ]; then\n" ++
  ascii "    if [ -x /mnt/Flash/rc.local ]; then\n" ++
  ascii "        /mnt/Flash/rc.local\n" ++
  ascii "    fi\n" ++
  ascii "fi\n" ++
  ascii "exit 0\n"

def knownStockLoginScripts : List Bytes := [stockLoginNetbsd4Dummy]

theorem stockLoginNetbsd4Dummy_length : stockLoginNetbsd4Dummy.length = 386 := by decide +kernel

theorem patchedLoginScript_length : patchedLoginScript.length = 219 := by decide +kernel

/-! ## Classification -/

inductive LoginClassification where
  | stock
  | alreadyPatched
  | unknown
deriving DecidableEq, Repr

structure LoginInfo where
  classification : LoginClassification
  offset : Option Nat
  length : Option Nat
  sha256 : Option String
  matchCount : Nat
deriving DecidableEq, Repr

def LoginInfo.patchable (login : LoginInfo) : Bool :=
  login.classification = .stock && login.offset.isSome && login.length.isSome

def stockMatches (decompressed : Bytes) : List (Nat × Bytes) :=
  knownStockLoginScripts.flatMap fun script =>
    (findAll decompressed script decompressed.length).map fun offset => (offset, script)

def patchedMatches (decompressed : Bytes) : List Nat :=
  findAll decompressed patchedLoginScript decompressed.length

def classifyLogin (decompressed : Bytes) : LoginInfo :=
  match stockMatches decompressed, patchedMatches decompressed with
  | [(offset, script)], [] =>
      ⟨.stock, some offset, some script.length, some (sha256Hex script), 1⟩
  | [], [offset] =>
      ⟨.alreadyPatched, some offset, some patchedLoginScript.length,
        some (sha256Hex patchedLoginScript), 1⟩
  | stock, patched => ⟨.unknown, none, none, none, stock.length + patched.length⟩

/-- The replacement of a script region: the patched script, filled up with zeros. -/
def loginReplacement (length : Nat) : Bytes :=
  patchedLoginScript ++ zeros (length - patchedLoginScript.length)

/-- The image with the script region at `offset` replaced. -/
def patchedImage (decompressed : Bytes) (offset length : Nat) : Bytes :=
  setSlice decompressed offset (offset + length) (loginReplacement length)

theorem length_loginReplacement {length : Nat} (h : patchedLoginScript.length ≤ length) :
    (loginReplacement length).length = length := by
  rw [loginReplacement, List.length_append, length_zeros]
  omega

/-! ## Classifying the patched image -/

theorem stockMatches_eq (d : Bytes) :
    stockMatches d =
      (findAll d stockLoginNetbsd4Dummy d.length).map fun i => (i, stockLoginNetbsd4Dummy) :=
  List.append_nil _

theorem hit_iff_occursAt {pat d : Bytes} {i : Nat} (hp : pat ≠ []) :
    Hit d pat d.length i ↔ OccursAt pat d i :=
  ⟨And.right, fun h => ⟨h.le_length hp, h⟩⟩

theorem stockLogin_ne_nil : stockLoginNetbsd4Dummy ≠ [] :=
  List.ne_nil_of_length_pos (by rw [stockLoginNetbsd4Dummy_length]; omega)

theorem patchedLogin_ne_nil : patchedLoginScript ≠ [] :=
  List.ne_nil_of_length_pos (by rw [patchedLoginScript_length]; omega)

/-- An image is stock when it holds the stock script once and the patched one nowhere. -/
theorem classifyLogin_stock {d : Bytes} (h : (classifyLogin d).classification = .stock) :
    ∃ offset, (classifyLogin d).offset = some offset ∧
      (classifyLogin d).length = some stockLoginNetbsd4Dummy.length ∧
      (∀ i, OccursAt stockLoginNetbsd4Dummy d i ↔ i = offset) ∧
      ∀ i, ¬ OccursAt patchedLoginScript d i := by
  revert h
  rw [classifyLogin, stockMatches_eq]
  rcases hs : findAll d stockLoginNetbsd4Dummy d.length with _ | ⟨offset, _ | ⟨_, _⟩⟩ <;>
    rcases hp : patchedMatches d with _ | ⟨_, _ | ⟨_, _⟩⟩ <;> intro h
  all_goals try exact absurd h LoginClassification.noConfusion
  refine ⟨offset, rfl, rfl, fun i => ?_, fun i hocc => ?_⟩
  · rw [← hit_iff_occursAt stockLogin_ne_nil, ← mem_findAll stockLogin_ne_nil, hs,
      List.mem_singleton]
  · have := (mem_findAll patchedLogin_ne_nil).mpr ((hit_iff_occursAt patchedLogin_ne_nil).mpr hocc)
    rw [← patchedMatches, hp] at this
    exact List.not_mem_nil this

theorem classifyLogin_of_patched {d : Bytes} {offset : Nat}
    (hs : ∀ i, ¬ OccursAt stockLoginNetbsd4Dummy d i)
    (hp : ∀ i, OccursAt patchedLoginScript d i ↔ i = offset) :
    classifyLogin d = ⟨.alreadyPatched, some offset, some patchedLoginScript.length,
      some (sha256Hex patchedLoginScript), 1⟩ := by
  have stock : findAll d stockLoginNetbsd4Dummy d.length = [] := by
    refine List.eq_nil_iff_forall_not_mem.mpr fun i hi => hs i ?_
    exact ((mem_findAll stockLogin_ne_nil).mp hi).2
  have patched : patchedMatches d = [offset] := by
    refine (eq_singleton_iff_of_nodup (nodup_findAll _ _ _)).mpr fun i => ?_
    rw [mem_findAll patchedLogin_ne_nil, hit_iff_occursAt patchedLogin_ne_nil, hp]
  rw [classifyLogin, stockMatches_eq, stock, patched]
  rfl

theorem classifyLogin_alreadyPatched {d : Bytes} {offset : Nat} {length : Option Nat}
    {sha256 : Option String} {count : Nat}
    (h : classifyLogin d = ⟨.alreadyPatched, some offset, length, sha256, count⟩) :
    (∀ i, OccursAt patchedLoginScript d i ↔ i = offset) ∧
      ∀ i, ¬ OccursAt stockLoginNetbsd4Dummy d i := by
  revert h
  rw [classifyLogin, stockMatches_eq]
  rcases hs : findAll d stockLoginNetbsd4Dummy d.length with _ | ⟨_, _ | ⟨_, _⟩⟩ <;>
    rcases hp : patchedMatches d with _ | ⟨offset', _ | ⟨_, _⟩⟩ <;> intro h
  all_goals
    have hclass := congrArg LoginInfo.classification h
    try exact absurd hclass LoginClassification.noConfusion
  obtain rfl : offset' = offset := Option.some.inj (congrArg LoginInfo.offset h)
  refine ⟨fun i => ?_, fun i hocc => ?_⟩
  · rw [← hit_iff_occursAt patchedLogin_ne_nil, ← mem_findAll patchedLogin_ne_nil]
    rw [patchedMatches] at hp
    rw [hp, List.mem_singleton]
  · have := (mem_findAll stockLogin_ne_nil).mpr ((hit_iff_occursAt stockLogin_ne_nil).mpr hocc)
    rw [hs] at this
    exact List.not_mem_nil this

theorem unbordered_login {pat r : Bytes} (hp : pat.take 2 = [35, 33]) (hr : r.take 2 = [35, 33])
    (hpm : NoMark 35 33 (pat.drop 1)) (hrm : NoMark 35 33 (r.drop 1)) : Unbordered pat r := by
  rcases pat with _ | ⟨a, _ | ⟨b, pat⟩⟩
  · simp at hp
  · simp at hp
  rcases r with _ | ⟨c, _ | ⟨d, r⟩⟩
  · simp at hr
  · simp at hr
  simp only [List.take_succ_cons, List.take_zero, List.cons.injEq, and_true] at hp hr
  obtain ⟨rfl, rfl⟩ := hp
  obtain ⟨rfl, rfl⟩ := hr
  exact unbordered_of_noMark hpm hrm

/-- The scripts start with `#!`, which occurs in them nowhere else. -/
theorem unbordered_stock : Unbordered stockLoginNetbsd4Dummy (loginReplacement 386) := by
  apply unbordered_login <;> decide +kernel

theorem unbordered_patched : Unbordered patchedLoginScript (loginReplacement 386) := by
  apply unbordered_login <;> decide +kernel

theorem stock_not_compatible : ¬ Compatible stockLoginNetbsd4Dummy (loginReplacement 386) := by
  decide +kernel

/-- Patching the only stock script of an image leaves the patched script, once, in its place. -/
theorem classifyLogin_patchedImage {d : Bytes} {offset length : Nat}
    (h : (classifyLogin d).classification = .stock)
    (ho : (classifyLogin d).offset = some offset) (hl : (classifyLogin d).length = some length) :
    classifyLogin (patchedImage d offset length) =
      ⟨.alreadyPatched, some offset, some patchedLoginScript.length,
        some (sha256Hex patchedLoginScript), 1⟩ := by
  obtain ⟨offset', ho', hl', hstock, hpatched⟩ := classifyLogin_stock h
  obtain rfl : offset' = offset := Option.some.inj (ho'.symm.trans ho)
  obtain rfl : length = 386 := by
    rw [← stockLoginNetbsd4Dummy_length]
    exact Option.some.inj (hl.symm.trans hl')
  have hfit : offset' + 386 ≤ d.length := by
    have := ((hstock offset').mpr rfl).le_length stockLogin_ne_nil
    rwa [stockLoginNetbsd4Dummy_length] at this
  have hrep : (loginReplacement 386).length = 386 :=
    length_loginReplacement (by rw [patchedLoginScript_length]; omega)
  -- the image before and after, split at the region
  have hnew : patchedImage d offset' 386 =
      d.take offset' ++ loginReplacement 386 ++ d.drop (offset' + 386) := rfl
  have hold : d = d.take offset' ++ slice d offset' (offset' + 386) ++ d.drop (offset' + 386) := by
    rw [slice_add, ← List.drop_drop, List.append_assoc, List.take_append_drop,
      List.take_append_drop]
  have htake : (d.take offset').length = offset' := by
    rw [List.length_take]
    omega
  have hslice : (slice d offset' (offset' + 386)).length = 386 := by
    rw [length_slice hfit]
    omega
  have hsplit : ∀ {pat : Bytes} {i : Nat}, pat.length ≤ 386 →
      Unbordered pat (loginReplacement 386) → OccursAt pat (patchedImage d offset' 386) i →
      OccursAt pat d i ∧ (i + pat.length ≤ offset' ∨ offset' + 386 ≤ i) ∨
        i = offset' ∧ Compatible pat (loginReplacement 386) := by
    intro pat i hpat hu hocc
    rw [hnew] at hocc
    have := hocc.of_replaced (r := slice d offset' (offset' + 386)) (by rw [hrep, hslice])
      (by rw [hrep]; exact hpat) hu
    rwa [← hold, htake, hslice] at this
  refine classifyLogin_of_patched (fun i hocc => ?_) fun i => ⟨fun hocc => ?_, ?_⟩
  · rcases hsplit (by rw [stockLoginNetbsd4Dummy_length]) unbordered_stock hocc with
      ⟨hd, hout⟩ | ⟨_, hc⟩
    · rw [hstock] at hd
      rw [stockLoginNetbsd4Dummy_length] at hout
      omega
    · exact stock_not_compatible hc
  · rcases hsplit (by rw [patchedLoginScript_length]; omega) unbordered_patched hocc with
      ⟨hd, _⟩ | ⟨hi, _⟩
    · exact absurd hd (hpatched i)
    · exact hi
  · rintro rfl
    rw [OccursAt, patchedImage, drop_setSlice_start (by omega), loginReplacement, List.append_assoc]
    exact List.prefix_append _ _

end TimeCapsule.Flash
