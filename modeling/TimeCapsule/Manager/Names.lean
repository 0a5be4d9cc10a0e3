import TimeCapsule.Manager.Shares

/-!
# Share names

The bytes of the names the manager makes, their lengths, and the search for a free one: a name with a
number is a bounded part of the name it is made from, followed by its suffix, and the search goes on
for ever only when every number is taken.
-/

namespace TimeCapsule.Manager

open Lib

variable {P : UInt8 → Prop} {used base device suffix name value : Bytes} {max n : Nat} {b : UInt8}

/-! ## Bytes -/

theorem mem_of_mem_echo (h : b ∈ echo value) : b ∈ value := by
  unfold echo at h
  split at h
  · simp at h
  · exact h

theorem length_echo_le (value : Bytes) : (echo value).length ≤ value.length := by
  unfold echo
  split <;> simp

/-- What `echo` prints is never one of its options. -/
theorem echo_echo (value : Bytes) : echo (echo value) = echo value := by
  by_cases h : value = ascii "-n" ∨ value = ascii "-e"
  · have hnil : echo value = [] := if_pos h
    rw [hnil]
    decide
  · have hself : echo value = value := if_neg h
    rw [hself, hself]

theorem echo_of_length (h : value.length ≠ 2) : echo value = value := by
  refine if_neg ?_
  rintro (rfl | rfl) <;> exact h (by decide)

theorem mem_truncateToBytes (h : b ∈ truncateToBytes value max) : b ∈ value := by
  unfold truncateToBytes at h
  split at h
  · exact mem_of_mem_echo h
  · exact List.take_subset _ _ h

theorem length_truncateToBytes_le (value : Bytes) (max : Nat) :
    (truncateToBytes value max).length ≤ max := by
  unfold truncateToBytes
  split
  · rename_i h
    exact (length_echo_le value).trans h
  · exact List.length_take_le _ _

theorem length_boundShareName_le (base : Bytes) (max : Nat) :
    (boundShareName base max).length ≤ max := by
  refine (length_echo_le _).trans ?_
  split
  · exact length_truncateToBytes_le _ _
  · exact length_truncateToBytes_le _ _

theorem length_shareNameWithSuffix_le (base suffix : Bytes) (max : Nat) :
    (shareNameWithSuffix base suffix max).length ≤ max := by
  unfold shareNameWithSuffix
  split
  · exact length_boundShareName_le _ _
  · refine (length_echo_le _).trans ?_
    have := length_boundShareName_le base (max - suffix.length)
    rw [List.length_append]
    omega

/-- Every byte is one of the base, or one of the name that stands for an empty base. -/
theorem forall_mem_boundShareName (hdisk : ∀ b ∈ ascii "Disk", P b) (hbase : ∀ b ∈ base, P b) :
    ∀ b ∈ boundShareName base max, P b := by
  intro b hb
  have hb := mem_of_mem_echo hb
  split at hb
  · exact hdisk b (mem_truncateToBytes hb)
  · exact hbase b (mem_truncateToBytes hb)

theorem forall_mem_shareNameWithSuffix (hdisk : ∀ b ∈ ascii "Disk", P b)
    (hbase : ∀ b ∈ base, P b) (hsuffix : ∀ b ∈ suffix, P b) :
    ∀ b ∈ shareNameWithSuffix base suffix max, P b := by
  intro b hb
  unfold shareNameWithSuffix at hb
  split at hb
  · exact forall_mem_boundShareName hdisk hsuffix b hb
  · rcases List.mem_append.mp (mem_of_mem_echo hb) with hb | hb
    · exact forall_mem_boundShareName hdisk hbase b hb
    · exact hsuffix b hb

theorem forall_mem_sanitizeShareName {partName : Bytes} (hdisk : ∀ b ∈ ascii "Disk ", P b)
    (hunder : P underscore) (hsafe : ∀ b, isUnsafe b = false → P b) (hdevice : ∀ b ∈ device, P b) :
    ∀ b ∈ sanitizeShareName partName device, P b := by
  intro b hb
  have hb := mem_of_mem_echo hb
  split at hb
  · rcases List.mem_append.mp hb with hb | hb
    · exact hdisk b hb
    · exact hdevice b hb
  · have hb := List.dropWhile_subset _ ((List.rdropWhile_prefix _ _).subset hb)
    obtain ⟨c, -, rfl⟩ := List.mem_map.mp hb
    cases hc : isUnsafe c
    · simpa [hc] using hsafe c hc
    · simpa [hc] using hunder

/-! ## The search for a free name -/

/-- The text of a suffix: the device, and a number from the second attempt on. -/
def nameSuffix (device : Bytes) (number : Option Nat) : Bytes :=
  ascii " (" ++ device ++ (number.elim [] fun n => ascii "-" ++ decimal n) ++ ascii ")"

theorem nameSuffix_none (device : Bytes) :
    nameSuffix device none = ascii " (" ++ device ++ ascii ")" := by
  simp [nameSuffix]

theorem numberedShareName_eq (base device : Bytes) (max n : Nat) :
    numberedShareName base device max n = shareNameWithSuffix base (nameSuffix device (some n)) max :=
  by simp [numberedShareName, nameSuffix]

theorem freeShareName_eq_some {fuel start : Nat}
    (h : freeShareName used base device max fuel start = some name) :
    ∃ n, start ≤ n ∧ name = numberedShareName base device max n ∧
      shareNameExists used name = false ∧
      ∀ k, start ≤ k → k < n → shareNameExists used (numberedShareName base device max k) = true := by
  induction fuel generalizing start with
  | zero => simp [freeShareName] at h
  | succ fuel ih =>
    rw [freeShareName] at h
    cases htaken : shareNameExists used (numberedShareName base device max start)
    · simp only [htaken, Bool.false_eq_true, if_false, Option.some.injEq] at h
      exact ⟨start, le_rfl, h.symm, h ▸ htaken, fun k h₁ h₂ => absurd h₁ (by omega)⟩
    · simp only [htaken, if_true] at h
      obtain ⟨n, hn, hname, hfree, hbefore⟩ := ih h
      refine ⟨n, by omega, hname, hfree, fun k hk hkn => ?_⟩
      rcases Nat.eq_or_lt_of_le hk with rfl | hk
      · exact htaken
      · exact hbefore k hk hkn

/-- A unique name is the bounded base, or carries a suffix because the bounded base is taken; a
number is only reached over the ones before it. -/
theorem uniqueShareName_cases (h : uniqueShareName used base device max = some name) :
    (name = boundShareName base max) ∨
      (shareNameExists used (boundShareName base max) = true ∧
        ∃ number : Option Nat, name = shareNameWithSuffix base (nameSuffix device number) max ∧
          ∀ n, number = some n → 1 ≤ n ∧ ∀ k, 1 ≤ k → k < n →
            shareNameExists used (numberedShareName base device max k) = true) := by
  simp only [uniqueShareName] at h
  cases hbound : shareNameExists used (boundShareName base max)
  · simp only [hbound, Bool.false_eq_true, if_false, Option.some.injEq] at h
    exact .inl h.symm
  · refine .inr ⟨rfl, ?_⟩
    simp only [hbound, if_true] at h
    split at h
    · obtain ⟨n, hn, hname, -, hbefore⟩ := freeShareName_eq_some h
      refine ⟨some n, hname.trans (numberedShareName_eq ..), fun n' hn' => ?_⟩
      cases hn'
      exact ⟨hn, hbefore⟩
    · refine ⟨none, ?_, fun n hn => by cases hn⟩
      rw [nameSuffix_none]
      exact (Option.some.inj h).symm

theorem length_uniqueShareName_le (h : uniqueShareName used base device max = some name) :
    name.length ≤ max := by
  rcases uniqueShareName_cases h with rfl | ⟨-, number, rfl, -⟩
  · exact length_boundShareName_le base max
  · exact length_shareNameWithSuffix_le base _ max

theorem forall_mem_decimal (hdigit : ∀ b : UInt8, 48 ≤ b → b ≤ 57 → P b) :
    ∀ b ∈ decimal n, P b := by
  intro b hb
  obtain ⟨c, hc, rfl⟩ := List.mem_map.mp hb
  have hd := Nat.isDigit_of_mem_toDigits (by omega) (by omega) hc
  simp only [Char.isDigit, Bool.and_eq_true, decide_eq_true_eq, ge_iff_le, UInt32.le_iff_toNat_le]
    at hd
  have h48 : '0'.val.toNat = 48 := rfl
  have h57 : '9'.val.toNat = 57 := rfl
  have hnat : c.toNat = c.val.toNat := rfl
  apply hdigit <;>
  · rw [UInt8.le_iff_toNat_le, UInt8.toNat_ofNat']
    simp
    omega

theorem forall_mem_uniqueShareName (hsign : ∀ b ∈ ascii "Disk (-)", P b)
    (hdigit : ∀ b : UInt8, 48 ≤ b → b ≤ 57 → P b) (hbase : ∀ b ∈ base, P b)
    (hdevice : ∀ b ∈ device, P b) (h : uniqueShareName used base device max = some name) :
    ∀ b ∈ name, P b := by
  have hdisk : ∀ b ∈ ascii "Disk", P b := fun b hb => hsign b (forall_mem_of_all (by decide) b hb)
  have hopen : ∀ b ∈ ascii " (", P b := fun b hb => hsign b (forall_mem_of_all (by decide) b hb)
  have hclose : ∀ b ∈ ascii ")", P b := fun b hb => hsign b (forall_mem_of_all (by decide) b hb)
  have hdash : ∀ b ∈ ascii "-", P b := fun b hb => hsign b (forall_mem_of_all (by decide) b hb)
  rcases uniqueShareName_cases h with rfl | ⟨-, number, rfl, -⟩
  · exact forall_mem_boundShareName hdisk hbase
  · refine forall_mem_shareNameWithSuffix hdisk hbase ?_
    intro b hb
    cases number with
    | none =>
      simp only [nameSuffix, Option.elim_none, List.append_nil, List.mem_append] at hb
      rcases hb with (hb | hb) | hb
      · exact hopen b hb
      · exact hdevice b hb
      · exact hclose b hb
    | some n =>
      simp only [nameSuffix, Option.elim_some, List.mem_append] at hb
      rcases hb with ((hb | hb) | hb | hb) | hb
      · exact hopen b hb
      · exact hdevice b hb
      · exact hdash b hb
      · exact forall_mem_decimal hdigit b hb
      · exact hclose b hb

/-! ## The names of a list of rows -/

/-- The names given to rows one after another, when those in `used` are taken. -/
inductive Named (cfg : Config) : (used : Bytes) → List Row → List Bytes → Prop where
  | nil {used : Bytes} : Named cfg used [] []
  | cons {used : Bytes} {row : Row} {rest : List Row} {name : Bytes} {names : List Bytes} :
      shareNameFor cfg used row = some name → Named cfg (recordShareName used name) rest names →
      Named cfg used (row :: rest) (name :: names)

theorem Named.length_eq {cfg : Config} {rows : List Row} {names : List Bytes}
    (h : Named cfg used rows names) : names.length = rows.length := by
  induction h with
  | nil => rfl
  | cons _ _ ih => simp [ih]

/-- What is built from rows: a share and a disk for each of them, under the same name. -/
theorem appendShares_eq_rows {cfg : Config} {prepared : Nat → Bool} {rows : List (Row × Nat)}
    {shares shares' : List ShareRow} {adisks adisks' : List AdiskRow}
    (h : appendShares cfg prepared rows used shares adisks = .rows shares' adisks') :
    (∀ row ∈ rows, prepared row.2 = true) ∧
      ∃ names, Named cfg used (rows.map Prod.fst) names ∧
        shares' = shares ++ List.zipWith (shareRow cfg) (rows.map Prod.fst) names ∧
        adisks' = adisks ++ List.zipWith (adiskRow cfg) (rows.map Prod.fst) names := by
  induction rows generalizing used shares adisks with
  | nil =>
    cases h
    exact ⟨by simp, [], .nil, by simp, by simp⟩
  | cons first rest ih =>
    rw [appendShares] at h
    split at h
    · rename_i hprepared
      split at h
      · cases h
      · rename_i name hname
        obtain ⟨hrest, names, hnamed, rfl, rfl⟩ := ih h
        refine ⟨?_, name :: names, .cons hname hnamed, by simp, by simp⟩
        simpa [hprepared] using hrest
    · cases h

theorem map_zipWith_shareRow {α : Type*} {cfg : Config} {f : ShareRow → α} {g : Row → α}
    (hf : ∀ row name, f (shareRow cfg row name) = g row) {rows : List Row} {names : List Bytes}
    (h : names.length = rows.length) :
    (List.zipWith (shareRow cfg) rows names).map f = rows.map g := by
  induction rows generalizing names with
  | nil => simp
  | cons row rest ih =>
    obtain _ | ⟨name, names⟩ := names
    · simp at h
    · simp [hf, ih (by simpa using h)]

end TimeCapsule.Manager
