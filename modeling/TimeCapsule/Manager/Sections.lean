import TimeCapsule.Lib.Utf8
import TimeCapsule.Manager.Advertised

/-!
# Sections of `smb.conf`

Every share row becomes a section under its name.  The manager tells names apart byte by byte, while
Samba matches section names its own way and gives some of them a meaning of their own; what is the
section of a name for Samba is a parameter here.
-/

namespace TimeCapsule.Manager

open Lib

variable {cfg : Config} {topology used base device suffix name : Bytes} {row : Row} {rows : List Row}
  {names : List Bytes} {max k : Nat}

/-- A row of `manager_share_rows`, without its newline. -/
def ShareRow.text (row : ShareRow) : Bytes :=
  [tab].intercalate [row.shareName, row.sharePath, row.partDevice, row.builtin, row.partUuid]

def baseName (row : Row) : Bytes := sanitizeShareName row.partName row.partDevice

def nameBudget (cfg : Config) (row : Row) : Nat :=
  adiskShareNameBudget row.partDevice row.partUuid cfg.adiskDiskAdvf

/-- The suffix of the candidates behind the first: the device, and then with numbers from one on. -/
def candidateSuffix (row : Row) (k : Nat) : Bytes :=
  nameSuffix row.partDevice (if k = 0 then none else some k)

/-- The names that are tried for a row, in their order. -/
def candidate (cfg : Config) (row : Row) : Nat → Bytes
  | 0 => boundShareName (baseName row) (nameBudget cfg row)
  | k + 1 => shareNameWithSuffix (baseName row) (candidateSuffix row k) (nameBudget cfg row)

/-- Where a candidate is cut, it is cut between characters. -/
def CutsWhole (cfg : Config) (row : Row) : (k : Nat) → Prop
  | 0 => ValidUtf8 ((baseName row).take (nameBudget cfg row))
  | k + 1 =>
      if nameBudget cfg row ≤ (candidateSuffix row k).length then
        ValidUtf8 ((candidateSuffix row k).take (nameBudget cfg row))
      else
        ValidUtf8 ((baseName row).take (nameBudget cfg row - (candidateSuffix row k).length)) ∧
          ValidUtf8 (candidateSuffix row k)

theorem validUtf8_ascii_of_all {text : Bytes} (h : (text.all fun b => decide (b < 0x80)) = true) :
    ValidUtf8 text := validUtf8_of_ascii (forall_mem_of_all h)

theorem validUtf8_echo_iff : ValidUtf8 (echo suffix) ↔ ValidUtf8 suffix := by
  unfold echo
  split
  · next h =>
    refine iff_of_true validUtf8_nil ?_
    rcases h with rfl | rfl
    · exact validUtf8_ascii_of_all (by decide)
    · exact validUtf8_ascii_of_all (by decide)
  · exact Iff.rfl

/-- The name that is sanitised from texts is one. -/
theorem validUtf8_baseName (hname : ValidUtf8 row.partName) (hdevice : ValidUtf8 row.partDevice) :
    ValidUtf8 (baseName row) := by
  have hsafe : ∀ b, 0x80 ≤ b → isUnsafe b = false := by
    intro b hb
    have hlist : b ∉ ascii "/\\:*?\"<>|,=][" := by
      intro hmem
      have hlow := forall_mem_of_all (P := fun b => b < 0x80) (by decide) b hmem
      exact absurd hb (UInt8.not_le.mpr hlow)
    have hcontrol : ¬b < 0x20 ∧ b ≠ 0x7f := by
      rw [UInt8.le_iff_toNat_le] at hb
      rw [UInt8.lt_iff_toNat_lt, Ne, ← UInt8.toNat_inj]
      have h80 : (0x80 : UInt8).toNat = 128 := rfl
      have h20 : (0x20 : UInt8).toNat = 32 := rfl
      have h7f : (0x7f : UInt8).toNat = 127 := rfl
      omega
    simp [isUnsafe, hlist, hcontrol]
  have hspace : ∀ b : UInt8, (b == space) = true → b < 0x80 := by
    intro b hb
    rw [eq_of_beq hb]
    decide
  unfold baseName sanitizeShareName
  rw [validUtf8_echo_iff]
  split
  · exact (validUtf8_ascii_of_all (by decide)).append hdevice
  · refine ((hname.map (fun b hb => ?_) fun b hb => ?_).dropWhile hspace).rdropWhile hspace
    · split
      · decide
      · exact hb
    · rw [hsafe b hb]
      simp

/-- The first candidate for a text is cut between characters when no character stands across its
budget. -/
theorem cutsWhole_zero_iff (hbase : ValidUtf8 (baseName row)) :
    CutsWhole cfg row 0 ↔
      ∀ b, (baseName row)[nameBudget cfg row]? = some b → b.IsUTF8FirstByte :=
  validUtf8_take_iff hbase

end TimeCapsule.Manager
