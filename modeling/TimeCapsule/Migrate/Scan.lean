import TimeCapsule.Migrate.Phases

/-!
# Rules for calls and for the scan

What holds of every call, and of every file that is scanned, holds of the whole scan.
-/

namespace TimeCapsule.Migrate

open Lib

variable {α : Type} {G : World → World → Prop} {op : MigrateOp} {w : World}

theorem ends_answer {Q : α → World → Prop} {E : Errno → World → Prop} {fault : Fault}
    (hfault : ∀ e ∈ fault.error, tcMissingError e = false) {r : Except Errno α × World}
    (hr : Prog.Ends Q E r.1 r.2) (hfail : ∀ e, tcMissingError e = false → E e w) :
    Prog.Ends Q E (answer fault w r).1 (answer fault w r).2 := by
  rw [answer]
  cases herror : fault.error with
  | none => exact hr
  | some e => exact hfail e (hfault e herror)

/-- A call that answers `r` unless it fails. -/
theorem wpE_sys {Q : MigrateRes op → World → Prop} {E : Errno → World → Prop}
    (r : MigrateAns op × World) (hperform : ∀ fault, w.perform fault op = answer fault w r)
    (hG : ∀ w, G w w) (hstep : G w r.2) (hr : Prog.Ends Q E r.1 r.2)
    (hfail : ∀ e, tcMissingError e = false → E e w) :
    Prog.wpE migrateKernel systemFault G (sys op) Q E w := by
  intro fault hfault
  show G w (w.perform fault op).2 ∧ Prog.Ends Q E (w.perform fault op).1 (w.perform fault op).2
  rw [hperform]
  refine ⟨?_, ends_answer hfault hr hfail⟩
  exact answer_cases _ (hG w) hstep

/-- A program that only reads ends in the world it started in. -/
theorem ReadsOnly.wpE {p : Mig α} (h : ReadsOnly p) {allow : MigrateOp → Fault → World → Prop}
    {Q : α → World → Prop} {E : Errno → World → Prop} (hG : G w w) (hQ : ∀ a, Q a w)
    (hE : ∀ e, E e w) : Prog.wpE migrateKernel allow G p Q E w := by
  apply Prog.Uses.wp_unchanged h (fun op fault w hop => perform_reads hop) hG
  intro r
  cases r with
  | ok a => exact hQ a
  | error e => exact hE e

theorem reads_wpE {allow : MigrateOp → Fault → World → Prop} {Q : MigrateRes op → World → Prop}
    {E : Errno → World → Prop} (hnative : op.writesNative = false)
    (hsource : op.writesSource = false) (hG : G w w) (hQ : ∀ a, Q a w) (hE : ∀ e, E e w) :
    Prog.wpE migrateKernel allow G (sys op) Q E w :=
  (reads_sys hnative hsource).wpE hG hQ hE

/-! ## The scan -/

section Scan

variable {allow : MigrateOp → Fault → World → Prop} {m : Migration} {I : List Bytes → World → Prop}
  {E : Errno → World → Prop}

/-- Migrating one file keeps the invariant on the retired rows and the world. -/
def KeepsFile (allow : MigrateOp → Fault → World → Prop) (G : World → World → Prop) (m : Migration)
    (I : List Bytes → World → Prop) : Prop :=
  ∀ retired path id scanSidecar w, w.path path = some id → I retired w →
    Prog.wpE migrateKernel allow G (tcScanFile m retired path id scanSidecar) I
      (fun _ => I retired) w

variable (hG : ∀ w, G w w) (hfile : KeepsFile allow G m I)

include hG hfile

omit hG in
theorem tcScanEntry_keeps {retired : List Bytes} {path : Path} {id : FileId} (scanSidecar : Bool)
    (hpath : w.path path = some id) (hI : I retired w) :
    Prog.wpE migrateKernel allow G (tcScanEntry m retired path (w.stat id) scanSidecar)
      (fun scanned => I scanned.2) E w := by
  rw [tcScanEntry]
  split
  · exact hI
  · apply Prog.wpE_bind.mpr
    apply Prog.wpE_attempt.mpr
    exact Prog.wpE_mono (hfile retired path id scanSidecar w hpath hI) (fun _ _ h => h)
      fun _ _ h => h

omit hG hfile in
theorem scanEach_keeps {scan : List Bytes → Name → Mig Scanned}
    (h : ∀ retired name w, I retired w → Prog.wpE migrateKernel allow G (scan retired name)
      (fun scanned => I scanned.2) E w) (names : List Name) {done : Scanned} (hI : I done.2 w) :
    Prog.wpE migrateKernel allow G (scanEach scan names done) (fun scanned => I scanned.2) E w := by
  induction names generalizing done w with
  | nil => exact hI
  | cons name names ih =>
    apply Prog.wpE_bind.mpr
    exact Prog.wpE_mono (h done.2 name w hI) (fun scanned _ hscanned => ih hscanned) fun _ _ h => h

theorem tcScanPath_keeps (fuel : Nat) {retired : List Bytes} (path : Path) (scanSidecar : Bool)
    (hI : I retired w) :
    Prog.wpE migrateKernel allow G (tcScanPath m fuel retired path scanSidecar)
      (fun scanned => I scanned.2) E w := by
  induction fuel generalizing retired path scanSidecar w with
  | zero => exact hI
  | succ fuel ih =>
    apply Prog.wpE_bind.mpr
    apply Prog.wpE_attempt.mpr
    intro fault _
    refine ⟨answer_cases _ (hG w) (hG w), ?_⟩
    show Prog.Ends _ _ (answer fault w _).1 (answer fault w _).2
    rw [answer]
    cases fault.error with
    | some e => exact hI
    | none =>
      cases hpath : w.path path with
      | none => exact hI
      | some id =>
        apply Prog.wpE_bind.mpr
        apply Prog.wpE_mono (tcScanEntry_keeps hfile scanSidecar hpath hI) _ fun _ _ h => h
        intro scanned w' hscanned
        split
        · exact hscanned
        · apply Prog.wpE_bind.mpr
          apply Prog.wpE_attempt.mpr
          apply reads_wpE rfl rfl (hG w')
          · intro listing
            exact scanEach_keeps (fun retired name w hI => ih _ _ hI) _ hscanned
          · intro e
            exact hscanned

theorem scanRoots_keeps (paths : List Path) {done : Scanned} (hI : I done.2 w) :
    Prog.wpE migrateKernel allow G (scanRoots m paths done) (fun scanned => I scanned.2) E w := by
  induction paths generalizing done w with
  | nil => exact hI
  | cons path paths ih =>
    apply Prog.wpE_bind.mpr
    have hroot : Prog.wpE migrateKernel allow G (tcScanRoot m done.2 path)
        (fun scanned => I scanned.2) E w := by
      apply Prog.wpE_bind.mpr
      apply Prog.wpE_attempt.mpr
      apply reads_wpE rfl rfl (hG w)
      · intro _
        exact tcScanPath_keeps hG hfile _ _ _ hI
      · intro e
        exact hI
    exact Prog.wpE_mono hroot (fun scanned _ hscanned => ih hscanned) fun _ _ h => h

end Scan

end TimeCapsule.Migrate
