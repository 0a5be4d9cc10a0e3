import TimeCapsule.Flash.Patch

/-!
# Analysing the patched bank

After a write the bank is read back and analysed again.  The second analysis finds the old footer
position and the old member, but it succeeds only if the rewritten bytes bring no second footer and
no second member into being; the patch builder does not look for them.
-/

namespace TimeCapsule.Flash

open Lib

/-! ## Frame of the rewritten bank -/

namespace BankLayout

variable {data z : Bytes} (l : BankLayout data)

end BankLayout

section Reanalysis

variable {env : FlashEnv} {name device osRelease : String} {data : Bytes}
  {acpChecksum : Option Nat} {candidate : Bool} {a : BankAnalysis} {p : PatchBuildInfo}
  {offset length : Nat}

end Reanalysis

end TimeCapsule.Flash
