import Mathlib.Logic.Function.Basic
import Mathlib.Logic.Relation
import TimeCapsule.Lib.Prog

/-!
# Processes that run side by side

Any number of processes run their programs on one world, one operation at a time and in any order.  A
process can start others, and can end between any two of its operations.  A process is verified alone:
from what it relies on of the others it is shown that each of its own steps guarantees what they rely
on.
-/

namespace TimeCapsule.Lib

abbrev Pid := Nat

/-- What processes can do to the world. -/
structure Machine (Op : Type) (Ans : Op → Type) (Job World : Type) where
  /-- The operation of the process can have this answer, and leave this world. -/
  step : Pid → (op : Op) → World → Ans op → World → Prop
  /-- The process that the operation has started, and its job. -/
  spawned : (op : Op) → Ans op → Option (Pid × Job)
  /-- What a process does for its job. -/
  program : Job → Prog Op Ans Unit
  /-- The jobs that are started from outside. -/
  started : Job → Prop
  /-- The world once the process has ended. -/
  leave : Pid → World → World

variable {Op : Type} {Ans : Op → Type} {Job World : Type}

namespace Machine

/-- The processes, with what each of them still has to do, and the world. -/
structure State (M : Machine Op Ans Job World) where
  pool : Pid → Option (Prog Op Ans Unit)
  world : World

variable (M : Machine Op Ans Job World)

/-- The pool with the process that was started. -/
def withSpawned (pool : Pid → Option (Prog Op Ans Unit)) : Option (Pid × Job) → Pid → Option (Prog Op Ans Unit)
  | none => pool
  | some (c, job) => Function.update pool c (some (M.program job))

/-- One step of one of the processes. -/
inductive Step : M.State → M.State → Prop
  | start {s : M.State} {p : Pid} {job : Job} (hfree : s.pool p = none) (hjob : M.started job) :
      Step s ⟨Function.update s.pool p (some (M.program job)), s.world⟩
  | run {s : M.State} {p : Pid} {op : Op} {k : Ans op → Prog Op Ans Unit} {ans : Ans op} {w : World}
      (hprog : s.pool p = some (.call op k)) (hstep : M.step p op s.world ans w)
      (hfree : ∀ c job, M.spawned op ans = some (c, job) → s.pool c = none) :
      Step s ⟨M.withSpawned (Function.update s.pool p (some (k ans))) (M.spawned op ans), w⟩
  /-- The process is done, or it is killed. -/
  | leave {s : M.State} {p : Pid} {prog : Prog Op Ans Unit} (hprog : s.pool p = some prog) :
      Step s ⟨Function.update s.pool p none, M.leave p s.world⟩

/-- What can come of the world when no process runs in the beginning. -/
def Reachable (initial : World → Prop) (s : M.State) : Prop :=
  ∃ w, initial w ∧ Relation.ReflTransGen M.Step ⟨fun _ => none, w⟩ s

end Machine

/-- What the processes rely on and guarantee. -/
structure Contract (M : Machine Op Ans Job World) where
  /-- What holds of the world between any two steps. -/
  Inv : World → Prop
  /-- What a process relies on of the steps of the others. -/
  Rely : Pid → World → World → Prop
  /-- What a process guarantees of its own steps. -/
  Guar : Pid → World → World → Prop
  /-- What a process finds when it begins with its job. -/
  Ready : Job → Pid → World → Prop
  rely_refl : ∀ p w, Rely p w w
  rely_trans : ∀ {p u v w}, Rely p u v → Rely p v w → Rely p u w
  rely_of_guar : ∀ {p q w w'}, q ≠ p → Inv w → Guar p w w' → Rely q w w'
  rely_of_leave : ∀ {p q w}, q ≠ p → Rely q w (M.leave p w)
  inv_leave : ∀ {p w}, Inv w → Inv (M.leave p w)
  ready_started : ∀ {job p w}, M.started job → Ready job p w

namespace Prog

section Safe

variable {M : Machine Op Ans Job World} (C : Contract M) {α β : Type}

/-- Whatever the others do in between, every step of the process keeps the invariant and guarantees what
it should, and in the end `Q` holds. -/
def Safe (p : Pid) : Prog Op Ans α → (α → World → Prop) → World → Prop
  | .ret a, Q, w => ∀ w', C.Rely p w w' → C.Inv w' → Q a w'
  | .call op k, Q, w => ∀ w₁ ans w₂, C.Rely p w w₁ → C.Inv w₁ → M.step p op w₁ ans w₂ →
      C.Inv w₂ ∧ C.Guar p w₁ w₂ ∧ (∀ c job, M.spawned op ans = some (c, job) → c ≠ p → C.Ready job c w₂) ∧
        (k ans).Safe p Q w₂

variable {C} {p : Pid} {prog : Prog Op Ans α} {f : α → Prog Op Ans β} {Q R : α → World → Prop} {w w' : World}

/-- A step of another process does no harm. -/
theorem Safe.rely (h : prog.Safe C p Q w) (hrely : C.Rely p w w') : prog.Safe C p Q w' := by
  cases prog with
  | ret a => exact fun w'' hrely' hinv => h w'' (C.rely_trans hrely hrely') hinv
  | call op k => exact fun w₁ ans w₂ hrely' => h w₁ ans w₂ (C.rely_trans hrely hrely')

theorem Safe.mono (h : prog.Safe C p Q w) (hQ : ∀ a w, Q a w → R a w) : prog.Safe C p R w := by
  induction prog generalizing w with
  | ret a => exact fun w' hrely hinv => hQ a w' (h w' hrely hinv)
  | call op k ih =>
    intro w₁ ans w₂ hrely hinv hstep
    obtain ⟨hinv', hguar, hready, hrest⟩ := h w₁ ans w₂ hrely hinv hstep
    exact ⟨hinv', hguar, hready, ih ans hrest⟩

theorem Safe.bind {S : β → World → Prop} (h : prog.Safe C p Q w)
    (hf : ∀ a w, C.Inv w → Q a w → (f a).Safe C p S w) (hinv : C.Inv w) : (prog.bind f).Safe C p S w := by
  induction prog generalizing w with
  | ret a => exact hf a w hinv (h w (C.rely_refl p w) hinv)
  | call op k ih =>
    intro w₁ ans w₂ hrely hinv₁ hstep
    obtain ⟨hinv', hguar, hready, hrest⟩ := h w₁ ans w₂ hrely hinv₁ hstep
    exact ⟨hinv', hguar, hready, ih ans hrest hinv'⟩

/-- What no step of another process can take away. -/
def Stable (C : Contract M) (p : Pid) (A : World → Prop) : Prop := ∀ {w w'}, C.Rely p w w' → A w → A w'

/-- Every operation that the program can ask for keeps what is stable, and every result satisfies `Q`. -/
theorem UsesTo.safe {N : Op → Prop} {A : World → Prop} {Q : α → Prop} (huses : prog.UsesTo N Q)
    (hA : Stable C p A) (hstep : ∀ op w ans w', N op → C.Inv w → A w → M.step p op w ans w' →
      C.Inv w' ∧ C.Guar p w w' ∧ M.spawned op ans = none ∧ A w') (hw : A w) :
    prog.Safe C p (fun a w => Q a ∧ A w) w := by
  induction prog generalizing w with
  | ret a => exact fun _ hrely _ => ⟨huses, hA hrely hw⟩
  | call op k ih =>
    intro w₁ ans w₂ hrely hinv hs
    obtain ⟨hinv', hguar, hnone, hw'⟩ := hstep op w₁ ans w₂ huses.1 hinv (hA hrely hw) hs
    refine ⟨hinv', hguar, fun c job hspawned => ?_, ih ans (huses.2 ans) hw'⟩
    rw [hnone] at hspawned
    cases hspawned

end Safe

end Prog

/-! ## The pool -/

section Pool

variable {M : Machine Op Ans Job World} {C : Contract M}

/-- Every process is safe in what it still has to do. -/
def Contract.Holds (C : Contract M) (s : M.State) : Prop :=
  C.Inv s.world ∧ ∀ p prog, s.pool p = some prog → prog.Safe C p (fun _ _ => True) s.world

/-- What a step does to the world: nothing, or what its process guarantees, or its process ends. -/
def Contract.Kept (C : Contract M) (s s' : M.State) : Prop :=
  s'.world = s.world ∨ (∃ p prog, s.pool p = some prog ∧ C.Guar p s.world s'.world) ∨
    ∃ p prog, s.pool p = some prog ∧ s'.world = M.leave p s.world

variable (hjobs : ∀ job p w, C.Inv w → C.Ready job p w → (M.program job).Safe C p (fun _ _ => True) w)
include hjobs

theorem Contract.Holds.step {s s' : M.State} (h : C.Holds s) (hstep : M.Step s s') :
    C.Holds s' ∧ C.Kept s s' := by
  obtain ⟨hinv, hsafe⟩ := h
  cases hstep with
  | @start p job hfree hjob =>
    refine ⟨⟨hinv, fun q prog hprog => ?_⟩, .inl rfl⟩
    dsimp only at hprog
    by_cases hq : q = p
    · subst hq
      rw [Function.update_self] at hprog
      exact Option.some.inj hprog ▸ hjobs job q _ hinv (C.ready_started hjob)
    · rw [Function.update_of_ne hq] at hprog
      exact hsafe q prog hprog
  | @run p op k ans w hprog hop hfree =>
    obtain ⟨hinv', hguar, hready, hrest⟩ := hsafe p _ hprog _ ans w (C.rely_refl p _) hinv hop
    have hold : ∀ q prog, Function.update s.pool p (some (k ans)) q = some prog →
        prog.Safe C q (fun _ _ => True) w := by
      intro q prog hq
      by_cases hqp : q = p
      · subst hqp
        rw [Function.update_self] at hq
        exact Option.some.inj hq ▸ hrest
      · rw [Function.update_of_ne hqp] at hq
        exact (hsafe q prog hq).rely (C.rely_of_guar hqp hinv hguar)
    refine ⟨⟨hinv', fun q prog hq => ?_⟩, .inr (.inl ⟨p, _, hprog, hguar⟩)⟩
    dsimp only at hq
    cases hspawned : M.spawned op ans with
    | none =>
      rw [hspawned] at hq
      exact hold q prog hq
    | some child =>
      obtain ⟨c, job⟩ := child
      rw [hspawned] at hq
      have hchild : c ≠ p := by
        rintro rfl
        rw [hfree c job hspawned] at hprog
        cases hprog
      by_cases hqc : q = c
      · subst hqc
        rw [Machine.withSpawned, Function.update_self] at hq
        exact Option.some.inj hq ▸ hjobs job q w hinv' (hready q job hspawned hchild)
      · rw [Machine.withSpawned, Function.update_of_ne hqc] at hq
        exact hold q prog hq
  | @leave p prog hprog =>
    refine ⟨⟨C.inv_leave hinv, fun q prog' hq => ?_⟩, .inr (.inr ⟨p, prog, hprog, rfl⟩)⟩
    dsimp only at hq
    by_cases hqp : q = p
    · subst hqp
      rw [Function.update_self] at hq
      cases hq
    · rw [Function.update_of_ne hqp] at hq
      exact (hsafe q prog' hq).rely (C.rely_of_leave hqp)

/-- Processes that are safe alone are safe side by side. -/
theorem Contract.holds_of_reachable {initial : World → Prop} (hinit : ∀ w, initial w → C.Inv w) {s : M.State}
    (h : M.Reachable initial s) : C.Holds s := by
  obtain ⟨w, hw, hsteps⟩ := h
  induction hsteps with
  | refl => exact ⟨hinit w hw, fun p prog hprog => absurd hprog (Option.some_ne_none prog).symm⟩
  | tail _ hstep ih => exact (ih.step hjobs hstep).1

end Pool

end TimeCapsule.Lib
