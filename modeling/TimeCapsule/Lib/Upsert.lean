import Mathlib.Data.List.Induction
import Mathlib.Data.List.Nodup

/-!
# Tables filled by key

A table of limited size, in which each row changes the entry with its key, or adds one at the end.  What
is filled row by row is the table of the first keys, each with what its own rows make of a fresh entry.
-/

namespace TimeCapsule.Lib

/-! ## First occurrences -/

section FirstOccurrences

variable {κ : Type*} [BEq κ] [LawfulBEq κ] {a : κ} {l : List κ}

theorem eraseDups_snoc_of_mem (h : a ∈ l) : (l ++ [a]).eraseDups = l.eraseDups := by
  rw [List.eraseDups_append, List.cons_removeAll, if_neg (by simpa using h)]
  simp

theorem eraseDups_snoc_of_notMem (h : a ∉ l) : (l ++ [a]).eraseDups = l.eraseDups ++ [a] := by
  rw [List.eraseDups_append, List.cons_removeAll, if_pos (by simpa using h)]
  simp [List.eraseDups_cons]

theorem nodup_eraseDups (l : List κ) : l.eraseDups.Nodup := by
  induction l using List.reverseRecOn with
  | nil => exact List.nodup_nil
  | append_singleton l a ih =>
    by_cases h : a ∈ l
    · rwa [eraseDups_snoc_of_mem h]
    · rw [eraseDups_snoc_of_notMem h, List.nodup_append]
      refine ⟨ih, List.nodup_singleton a, ?_⟩
      rintro b hb _ hc rfl
      rw [List.mem_singleton] at hc
      exact h (hc ▸ List.mem_eraseDups.mp hb)

end FirstOccurrences

/-! ## One row -/

section Upsert

variable {κ α ρ : Type*} [DecidableEq κ] (key : α → κ) (fresh : κ → α) (cap : Nat)

/-- `f` at the first entry with the key, or at a fresh one while there is room. -/
def upsert (k : κ) (f : α → α) (table : List α) : List α :=
  match table.findIdx? (fun a => decide (key a = k)) with
  | some i => table.modify i f
  | none => if table.length < cap then table ++ [f (fresh k)] else table

variable {key fresh cap} {k : κ} {f : α → α} {ks : List κ} {state : κ → α}

theorem findIdx?_map_eq_none (hkey : ∀ k, key (state k) = k) (hk : k ∉ ks) :
    (ks.map state).findIdx? (fun a => decide (key a = k)) = none := by
  rw [List.findIdx?_eq_none_iff]
  intro a ha
  obtain ⟨k', hk', rfl⟩ := List.mem_map.mp ha
  rw [hkey]
  refine decide_eq_false ?_
  rintro rfl
  exact hk hk'

theorem upsert_map_of_mem (hkey : ∀ k, key (state k) = k) (hnd : ks.Nodup) (hk : k ∈ ks) :
    upsert key fresh cap k f (ks.map state) = ks.map fun k' => if k' = k then f (state k') else state k' := by
  have hmodify : ∃ i, (ks.map state).findIdx? (fun a => decide (key a = k)) = some i ∧
      (ks.map state).modify i f = ks.map fun k' => if k' = k then f (state k') else state k' := by
    induction ks with
    | nil => exact absurd hk List.not_mem_nil
    | cons k' ks ih =>
      obtain ⟨hk', hnd⟩ := List.nodup_cons.mp hnd
      rw [List.map_cons, List.findIdx?_cons, List.map_cons, hkey]
      by_cases h : k' = k
      · subst h
        refine ⟨0, by simp, ?_⟩
        rw [List.modify_zero_cons, if_pos rfl]
        refine congrArg _ (List.map_congr_left fun a ha => ?_)
        refine (if_neg ?_).symm
        rintro rfl
        exact hk' ha
      · obtain ⟨i, hi, hmod⟩ := ih hnd ((List.mem_cons.mp hk).resolve_left fun h' => h h'.symm)
        refine ⟨i + 1, by simp [h, hi], ?_⟩
        rw [List.modify_succ_cons, hmod, if_neg h]
  obtain ⟨i, hi, hmod⟩ := hmodify
  rw [upsert, hi]
  exact hmod

theorem upsert_map_of_room (hkey : ∀ k, key (state k) = k) (hk : k ∉ ks) (hroom : ks.length < cap) :
    upsert key fresh cap k f (ks.map state) = ks.map state ++ [f (fresh k)] := by
  rw [upsert, findIdx?_map_eq_none hkey hk]
  exact if_pos (by rwa [List.length_map])

theorem upsert_map_of_full (hkey : ∀ k, key (state k) = k) (hk : k ∉ ks) (hfull : cap ≤ ks.length) :
    upsert key fresh cap k f (ks.map state) = ks.map state := by
  rw [upsert, findIdx?_map_eq_none hkey hk]
  exact if_neg (by rw [List.length_map]; omega)

/-! ## Filling a table -/

variable (key fresh cap) (rowKey : ρ → κ) (update : ρ → α → α)

def fillTable (rows : List ρ) : List α :=
  rows.foldl (fun table r => upsert key fresh cap (rowKey r) (update r) table) []

/-- The keys in the order of their first rows, as many as there is room for. -/
def keptKeys (rows : List ρ) : List κ := (rows.map rowKey).eraseDups.take cap

/-- What the rows with the key make of its entry. -/
def entryOf (rows : List ρ) (k : κ) : α :=
  (rows.filter fun r => decide (rowKey r = k)).foldl (fun a r => update r a) (fresh k)

variable {key fresh cap rowKey update} {rows rows' : List ρ}

/-- What a fresh entry has and every row keeps. -/
theorem entryOf_induction {P : α → Prop} (hfresh : P (fresh k)) (hupdate : ∀ r a, P a → P (update r a))
    (rows : List ρ) : P (entryOf fresh rowKey update rows k) := by
  unfold entryOf
  generalize rows.filter _ = l
  induction l using List.reverseRecOn with
  | nil => exact hfresh
  | append_singleton l r ih =>
    rw [List.foldl_append]
    exact hupdate r _ ih

theorem key_entryOf (hfresh : ∀ k, key (fresh k) = k) (hupdate : ∀ r a, key (update r a) = key a)
    (rows : List ρ) (k : κ) : key (entryOf fresh rowKey update rows k) = k :=
  entryOf_induction (P := fun a => key a = k) (hfresh k) (fun r a h => (hupdate r a).trans h) rows

theorem entryOf_append_of_ne {r : ρ} (h : rowKey r ≠ k) :
    entryOf fresh rowKey update (rows ++ [r]) k = entryOf fresh rowKey update rows k := by
  rw [entryOf, List.filter_append, List.filter_singleton, decide_eq_false h]
  simp [entryOf]

theorem entryOf_append_self (rows : List ρ) (r : ρ) :
    entryOf fresh rowKey update (rows ++ [r]) (rowKey r) =
      update r (entryOf fresh rowKey update rows (rowKey r)) := by
  rw [entryOf, List.filter_append, List.filter_singleton, decide_eq_true rfl]
  simp [entryOf]

theorem entryOf_of_notMem (h : k ∉ rows.map rowKey) : entryOf fresh rowKey update rows k = fresh k := by
  rw [entryOf, List.filter_eq_nil_iff.mpr]
  · rfl
  · intro r hr hk
    exact h (List.mem_map.mpr ⟨r, hr, of_decide_eq_true hk⟩)

theorem nodup_keptKeys (rows : List ρ) : (keptKeys cap rowKey rows).Nodup :=
  (nodup_eraseDups _).sublist (List.take_sublist _ _)

/-- A filled table by its keys. -/
theorem fillTable_eq (hfresh : ∀ k, key (fresh k) = k) (hupdate : ∀ r a, key (update r a) = key a)
    (rows : List ρ) : fillTable key fresh cap rowKey update rows =
      (keptKeys cap rowKey rows).map (entryOf fresh rowKey update rows) := by
  have hkey : ∀ (rows : List ρ) k, key (entryOf fresh rowKey update rows k) = k :=
    key_entryOf hfresh hupdate
  induction rows using List.reverseRecOn with
  | nil => simp [fillTable, keptKeys]
  | append_singleton rows r ih =>
    rw [fillTable, List.foldl_append, List.foldl_cons, List.foldl_nil]
    rw [fillTable] at ih
    rw [ih]
    by_cases hmem : rowKey r ∈ keptKeys cap rowKey rows
    · have hrow : rowKey r ∈ rows.map rowKey := List.mem_eraseDups.mp (List.mem_of_mem_take hmem)
      rw [upsert_map_of_mem (hkey rows) (nodup_keptKeys rows) hmem, keptKeys, keptKeys, List.map_append,
        List.map_singleton, eraseDups_snoc_of_mem hrow]
      refine List.map_congr_left fun k _ => ?_
      by_cases hk : k = rowKey r
      · rw [if_pos hk, hk, entryOf_append_self]
      · rw [if_neg hk, entryOf_append_of_ne (Ne.symm hk)]
    · have hsame : ∀ k ∈ keptKeys cap rowKey rows,
          entryOf fresh rowKey update (rows ++ [r]) k = entryOf fresh rowKey update rows k := by
        intro k hk
        refine entryOf_append_of_ne ?_
        rintro rfl
        exact hmem hk
      by_cases hroom : (keptKeys cap rowKey rows).length < cap
      · -- All keys so far are kept, and the new one stands behind them.
        have hall : keptKeys cap rowKey rows = (rows.map rowKey).eraseDups := by
          rw [keptKeys, List.length_take] at hroom
          exact List.take_of_length_le (by omega)
        have hrow : rowKey r ∉ rows.map rowKey := by
          rwa [hall, List.mem_eraseDups] at hmem
        have hkeys : keptKeys cap rowKey (rows ++ [r]) = keptKeys cap rowKey rows ++ [rowKey r] := by
          rw [keptKeys, List.map_append, List.map_singleton, eraseDups_snoc_of_notMem hrow, hall]
          rw [hall] at hroom
          exact List.take_of_length_le (by rw [List.length_append, List.length_singleton]; omega)
        rw [upsert_map_of_room (hkey rows) hmem hroom, hkeys, List.map_append, List.map_congr_left hsame,
          List.map_singleton, entryOf_append_self, entryOf_of_notMem hrow]
      · have hkeys : keptKeys cap rowKey (rows ++ [r]) = keptKeys cap rowKey rows := by
          rw [keptKeys, List.length_take] at hroom
          rw [keptKeys, List.map_append, List.map_singleton, keptKeys]
          by_cases hrow : rowKey r ∈ rows.map rowKey
          · rw [eraseDups_snoc_of_mem hrow]
          · rw [eraseDups_snoc_of_notMem hrow, List.take_append_of_le_length (by omega)]
        rw [upsert_map_of_full (hkey rows) hmem (Nat.le_of_not_lt hroom), hkeys,
          List.map_congr_left hsame]

variable (key fresh update) in
/-- The rows may be mixed in any way that keeps the order of the rows with the same key. -/
theorem fillTable_perm (hfresh : ∀ k, key (fresh k) = k) (hupdate : ∀ r a, key (update r a) = key a)
    (hfew : (rows.map rowKey).eraseDups.length ≤ cap) (hfew' : (rows'.map rowKey).eraseDups.length ≤ cap)
    (hrows : ∀ k, (rows.filter fun r => decide (rowKey r = k)) =
      rows'.filter fun r => decide (rowKey r = k)) :
    (fillTable key fresh cap rowKey update rows).Perm (fillTable key fresh cap rowKey update rows') := by
  have hmem : ∀ k, k ∈ rows.map rowKey ↔ k ∈ rows'.map rowKey := by
    intro k
    have hiff : ∀ l : List ρ, k ∈ l.map rowKey ↔ (l.filter fun r => decide (rowKey r = k)) ≠ [] := by
      intro l
      simp [List.filter_eq_nil_iff]
    rw [hiff, hiff, hrows]
  have hkeys : (keptKeys cap rowKey rows).Perm (keptKeys cap rowKey rows') := by
    rw [keptKeys, keptKeys, List.take_of_length_le hfew, List.take_of_length_le hfew']
    refine (List.perm_ext_iff_of_nodup (nodup_eraseDups _) (nodup_eraseDups _)).mpr fun k => ?_
    rw [List.mem_eraseDups, List.mem_eraseDups, hmem]
  have hentry : entryOf fresh rowKey update rows = entryOf fresh rowKey update rows' := by
    funext k
    rw [entryOf, entryOf, hrows]
  rw [fillTable_eq hfresh hupdate, fillTable_eq hfresh hupdate, hentry]
  exact hkeys.map _

end Upsert

end TimeCapsule.Lib
