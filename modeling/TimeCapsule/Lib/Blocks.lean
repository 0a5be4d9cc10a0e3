import TimeCapsule.Lib.Bytes

/-!
# Processes that take blocks

A process takes blocks of one length; what does not fill a block waits.  The state after some bytes does
not depend on how they have arrived.
-/

namespace TimeCapsule.Lib

section Blocks

variable {σ : Type} {process : σ → Bytes → σ} {n : Nat} {start s : σ} {bytes rest data : Bytes}

/-- The full blocks of the bytes. -/
def blocksOf (n : Nat) (bytes : Bytes) : List Bytes :=
  (List.range (bytes.length / n)).map fun i => (bytes.drop (i * n)).take n

theorem blocksOf_append {b : Bytes} (hn : 0 < n) (hb : b.length = n) :
    blocksOf n (b ++ bytes) = b :: blocksOf n bytes := by
  have hcount : (b ++ bytes).length / n = bytes.length / n + 1 := by
    rw [List.length_append, hb, Nat.add_comm, Nat.add_div_right _ hn]
  rw [blocksOf, hcount, List.range_succ_eq_map, List.map_cons, List.map_map, blocksOf]
  congr 1
  · rw [Nat.zero_mul, List.drop_zero, List.take_left' hb]
  refine List.map_congr_left fun i _ => ?_
  show ((b ++ bytes).drop ((i + 1) * n)).take n = _
  rw [Nat.succ_mul, Nat.add_comm, ← List.drop_drop, List.drop_left' hb]

theorem blocksOf_flatten {full : List Bytes} (hn : 0 < n) (hfull : ∀ b ∈ full, b.length = n)
    (hrest : rest.length < n) : blocksOf n (full.flatten ++ rest) = full := by
  induction full with
  | nil =>
    rw [List.flatten_nil, List.nil_append, blocksOf, Nat.div_eq_of_lt hrest]
    rfl
  | cons b full ih =>
    rw [List.flatten_cons, List.append_assoc, blocksOf_append hn (hfull b List.mem_cons_self),
      ih fun b hb => hfull b (List.mem_cons_of_mem _ hb)]

/-- The process has taken the full blocks of the bytes, and the rest waits. -/
structure Absorbed (process : σ → Bytes → σ) (n : Nat) (start : σ) (bytes : Bytes) (s : σ)
    (rest : Bytes) : Prop where
  blocks : ∃ full : List Bytes, (∀ b ∈ full, b.length = n) ∧ full.flatten ++ rest = bytes ∧
    full.foldl process start = s
  short : rest.length < n

theorem absorbed_nil (hn : 0 < n) : Absorbed process n start [] start [] :=
  ⟨⟨[], by simp, rfl, rfl⟩, hn⟩

/-- More bytes that do not fill the block. -/
theorem Absorbed.wait (h : Absorbed process n start bytes s rest) (hdata : rest.length + data.length < n) :
    Absorbed process n start (bytes ++ data) s (rest ++ data) := by
  obtain ⟨full, hfull, rfl, hs⟩ := h.blocks
  exact ⟨⟨full, hfull, (List.append_assoc _ _ _).symm, hs⟩, by rwa [List.length_append]⟩

/-- Bytes that fill the block. -/
theorem Absorbed.fill (h : Absorbed process n start bytes s rest) (hdata : rest.length + data.length = n) :
    Absorbed process n start (bytes ++ data) (process s (rest ++ data)) [] := by
  obtain ⟨full, hfull, rfl, rfl⟩ := h.blocks
  refine ⟨⟨full ++ [rest ++ data], ?_, by simp, by simp⟩, (Nat.zero_le _).trans_lt h.short⟩
  intro b hb
  rcases List.mem_append.mp hb with hb | hb
  · exact hfull b hb
  · rw [List.mem_singleton.mp hb, List.length_append, hdata]

theorem Absorbed.length_rest (h : Absorbed process n start bytes s rest) :
    rest.length = bytes.length % n := by
  obtain ⟨full, hfull, rfl, -⟩ := h.blocks
  have hmul : full.flatten.length = full.length * n := by
    rw [List.length_flatten, List.eq_replicate_of_mem (a := n) (l := full.map List.length) (by
      intro len hlen
      obtain ⟨b, hb, rfl⟩ := List.mem_map.mp hlen
      exact hfull b hb)]
    simp
  rw [List.length_append, hmul, Nat.mul_add_mod_of_lt h.short]

/-- When nothing waits, the process has taken the blocks one after another. -/
theorem Absorbed.eq_foldl (h : Absorbed process n start bytes s []) :
    s = (blocksOf n bytes).foldl process start := by
  obtain ⟨full, hfull, rfl, rfl⟩ := h.blocks
  rw [blocksOf_flatten h.short hfull h.short]

end Blocks

end TimeCapsule.Lib
