import Mathlib.Init

/-!
# Programs over kernel operations

A program asks for operations one at a time and continues with the answer.  What the kernel answers
depends on a fault, chosen by the environment at every operation.  `wp` is the weakest precondition
over all allowed faults, with a guarantee that every single step keeps; it is what a run that is
killed between two operations has still kept.
-/

namespace TimeCapsule.Lib

inductive Prog (Op : Type) (Ans : Op → Type) (α : Type) : Type where
  | ret (a : α)
  | call (op : Op) (k : Ans op → Prog Op Ans α)

namespace Prog

variable {Op : Type} {Ans : Op → Type} {α β : Type}

def bind : Prog Op Ans α → (α → Prog Op Ans β) → Prog Op Ans β
  | .ret a, f => f a
  | .call op k, f => .call op fun ans => (k ans).bind f

instance : Monad (Prog Op Ans) where
  pure := .ret
  bind := bind

/-- One operation. -/
def op (o : Op) : Prog Op Ans (Ans o) := .call o .ret

@[simp] theorem pure_eq (a : α) : (pure a : Prog Op Ans α) = .ret a := rfl

@[simp] theorem bind_eq (p : Prog Op Ans α) (f : α → Prog Op Ans β) : p >>= f = p.bind f := rfl

@[simp] theorem ret_bind (a : α) (f : α → Prog Op Ans β) : (ret a).bind f = f a := rfl

@[simp] theorem op_bind (o : Op) (f : Ans o → Prog Op Ans β) : (op o).bind f = .call o f := rfl

end Prog

/-- What an operation does to the world, and what it answers, under a given fault. -/
structure Kernel (Op : Type) (Ans : Op → Type) (World Fault : Type) where
  step : (op : Op) → Fault → World → Ans op × World

namespace Prog

variable {Op : Type} {Ans : Op → Type} {World Fault α β : Type}

section Generic

variable (K : Kernel Op Ans World Fault) (allow : Op → Fault → World → Prop)

/-- The run under the listed faults, and under `quiet` when the list is used up. -/
def run (quiet : Fault) : Prog Op Ans α → List Fault → World → α × World × List Fault
  | .ret a, faults, w => (a, w, faults)
  | .call op k, [], w =>
      let (ans, w') := K.step op quiet w
      (k ans).run quiet [] w'
  | .call op k, f :: faults, w =>
      let (ans, w') := K.step op f w
      (k ans).run quiet faults w'

/-- The program can return `a` in world `w'` under allowed faults. -/
inductive Returns : Prog Op Ans α → World → α → World → Prop
  | ret (a : α) (w : World) : Returns (.ret a) w a w
  | call {op : Op} {k : Ans op → Prog Op Ans α} {f : Fault} {w w' : World} {a : α}
      (hf : allow op f w) (h : Returns (k (K.step op f w).1) (K.step op f w).2 a w') :
      Returns (.call op k) w a w'

/-- The program, started in the first world, can be in the second one after some of its steps. -/
inductive Visits : Prog Op Ans α → World → World → Prop
  | here (p : Prog Op Ans α) (w : World) : Visits p w w
  | call {op : Op} {k : Ans op → Prog Op Ans α} {f : Fault} {w w' : World}
      (hf : allow op f w) (h : Visits (k (K.step op f w).1) (K.step op f w).2 w') :
      Visits (.call op k) w w'

/-- Every allowed step keeps the guarantee `G`, and the end satisfies `Q`. -/
def wp (G : World → World → Prop) : Prog Op Ans α → (α → World → Prop) → World → Prop
  | .ret a, Q, w => Q a w
  | .call op k, Q, w => ∀ f, allow op f w →
      G w (K.step op f w).2 ∧ (k (K.step op f w).1).wp G Q (K.step op f w).2

/-! ### Generic rules -/

variable {K allow} {G H : World → World → Prop} {p : Prog Op Ans α} {f : α → Prog Op Ans β}
  {Q R : α → World → Prop} {w w' : World}

theorem wp_bind {Q : β → World → Prop} :
    (p.bind f).wp K allow G Q w ↔ p.wp K allow G (fun a => (f a).wp K allow G Q) w := by
  induction p generalizing w with
  | ret a => exact Iff.rfl
  | call op k ih => exact forall₂_congr fun _ _ => and_congr_right fun _ => ih _

theorem wp_mono (h : p.wp K allow G Q w) (hQ : ∀ a w, Q a w → R a w) : p.wp K allow G R w := by
  induction p generalizing w with
  | ret a => exact hQ a w h
  | call op k ih => exact fun f hf => ⟨(h f hf).1, ih _ (h f hf).2⟩

theorem wp_guarantee_mono (h : p.wp K allow G Q w) (hG : ∀ w w', G w w' → H w w') :
    p.wp K allow H Q w := by
  induction p generalizing w with
  | ret a => exact h
  | call op k ih => exact fun f hf => ⟨hG _ _ (h f hf).1, ih _ (h f hf).2⟩

theorem wp_and (hq : p.wp K allow G Q w) (hr : p.wp K allow H R w) :
    p.wp K allow (fun w w' => G w w' ∧ H w w') (fun a w => Q a w ∧ R a w) w := by
  induction p generalizing w with
  | ret a => exact ⟨hq, hr⟩
  | call op k ih =>
    exact fun f hf => ⟨⟨(hq f hf).1, (hr f hf).1⟩, ih _ (hq f hf).2 (hr f hf).2⟩

/-- What holds of all ends holds of the end that is reached. -/
theorem wp_returns {a : α} (h : p.wp K allow G Q w) (hr : p.Returns K allow w a w') : Q a w' := by
  induction hr with
  | ret a w => exact h
  | call hf _ ih => exact ih (h _ hf).2

/-- What holds of every end holds as a weakest precondition that guarantees nothing on the way. -/
theorem wp_of_returns (h : ∀ a w', p.Returns K allow w a w' → Q a w') :
    p.wp K allow (fun _ _ => True) Q w := by
  induction p generalizing w with
  | ret a => exact h a w (.ret a w)
  | call op k ih => exact fun f hf => ⟨trivial, ih _ fun a w' hr => h a w' (.call hf hr)⟩

/-- What every step establishes holds wherever the program is killed. -/
theorem wp_visits {I : World → Prop} (h : p.wp K allow (fun _ w => I w) Q w) (hw : I w)
    (hv : p.Visits K allow w w') : I w' := by
  induction hv with
  | here p w => exact hw
  | call hf _ ih => exact ih (h _ hf).2 (h _ hf).1

/-- The program, started in the first world, can have come to the second program in the second
world. -/
inductive Reaches (K : Kernel Op Ans World Fault) (allow : Op → Fault → World → Prop) :
    Prog Op Ans α → World → Prog Op Ans α → World → Prop
  | here (p : Prog Op Ans α) (w : World) : Reaches K allow p w p w
  | call {op : Op} {k : Ans op → Prog Op Ans α} {q : Prog Op Ans α} {f : Fault} {w w' : World}
      (hf : allow op f w) (h : Reaches K allow (k (K.step op f w).1) (K.step op f w).2 q w') :
      Reaches K allow (.call op k) w q w'

/-- What is still to be done keeps what the whole program keeps. -/
theorem wp_reaches {q : Prog Op Ans α} (h : p.wp K allow G Q w) (hr : Reaches K allow p w q w') :
    q.wp K allow G Q w' := by
  induction hr with
  | here p w => exact h
  | call hf _ ih => exact ih (h _ hf).2

/-- A guarantee that is reflexive and transitive relates the ends of any part of a run. -/
theorem wp_visits_rel (hrefl : ∀ w, G w w) (htrans : ∀ {u v w}, G u v → G v w → G u w)
    (h : p.wp K allow G Q w) (hv : p.Visits K allow w w') : G w w' := by
  induction hv with
  | here p w => exact hrefl w
  | call hf _ ih => exact htrans (h _ hf).1 (ih (h _ hf).2)

theorem Returns.visits {a : α} (h : p.Returns K allow w a w') : p.Visits K allow w w' := by
  induction h with
  | ret a w => exact .here _ w
  | call hf _ ih => exact .call hf ih

theorem Returns.visits_bind {a : α} (h : p.Returns K allow w a w') :
    (p.bind f).Visits K allow w w' := by
  induction h with
  | ret a w => exact .here _ w
  | call hf _ ih => exact .call hf ih

theorem Reaches.visits {q : Prog Op Ans α} (h : Reaches K allow p w q w') :
    p.Visits K allow w w' := by
  induction h with
  | here p w => exact .here p w
  | call hf _ ih => exact .call hf ih

theorem bind_assoc {γ : Type} (p : Prog Op Ans α) (f : α → Prog Op Ans β) (g : β → Prog Op Ans γ) :
    (p.bind f).bind g = p.bind fun a => (f a).bind g := by
  induction p with
  | ret a => rfl
  | call op k ih => exact congrArg (call op) (funext ih)

/-- The program comes to a part `q` of it, with the rest still to do. -/
def ComesTo {γ : Type} (K : Kernel Op Ans World Fault) (allow : Op → Fault → World → Prop)
    (p : Prog Op Ans α) (w : World) (q : Prog Op Ans γ) (w' : World) : Prop :=
  ∃ k, Reaches K allow p w (q.bind k) w'

theorem ComesTo.first : ComesTo K allow (p.bind f) w p w := ⟨f, .here _ w⟩

theorem ComesTo.within {γ : Type} {q : Prog Op Ans γ} (h : ComesTo K allow p w q w') :
    ComesTo K allow (p.bind f) w q w' := by
  obtain ⟨k, h⟩ := h
  refine ⟨fun c => (k c).bind f, ?_⟩
  rw [← bind_assoc]
  generalize q.bind k = r at h
  induction h with
  | here p w => exact .here _ w
  | call hf _ ih => exact .call hf ih

theorem ComesTo.after {γ : Type} {q : Prog Op Ans γ} {a : α} {w'' : World}
    (hp : p.Returns K allow w a w') (h : ComesTo K allow (f a) w' q w'') :
    ComesTo K allow (p.bind f) w q w'' := by
  obtain ⟨k, h⟩ := h
  refine ⟨k, ?_⟩
  induction hp with
  | ret a w => exact h
  | call hf _ ih => exact .call hf (ih h)

/-- Without faults the run is one that is allowed. -/
theorem run_quiet_returns (quiet : Fault) (hquiet : ∀ op w, allow op quiet w) :
    p.Returns K allow w (p.run K quiet [] w).1 (p.run K quiet [] w).2.1 := by
  induction p generalizing w with
  | ret a => exact .ret a w
  | call op k ih => exact .call (hquiet op w) (ih _)

theorem run_returns (quiet : Fault) (faults : List Fault) :
    p.Returns K (fun _ _ _ => True) w (p.run K quiet faults w).1
      (p.run K quiet faults w).2.1 := by
  induction p generalizing w faults with
  | ret a => exact .ret a w
  | call op k ih =>
    cases faults with
    | nil => exact .call trivial (ih _ _)
    | cons f faults => exact .call trivial (ih _ _)

end Generic

/-! ### What a program asks for -/

section Uses

variable {P R : Op → Prop} {p : Prog Op Ans α} {f : α → Prog Op Ans β}

/-- Every operation the program can ask for satisfies `P`, whatever is answered. -/
def Uses (P : Op → Prop) : Prog Op Ans α → Prop
  | .ret _ => True
  | .call op k => P op ∧ ∀ ans, (k ans).Uses P

theorem Uses.bind (hp : p.Uses P) (hf : ∀ a, (f a).Uses P) : (p.bind f).Uses P := by
  induction p with
  | ret a => exact hf a
  | call op k ih => exact ⟨hp.1, fun ans => ih ans (hp.2 ans)⟩

theorem Uses.mono (hp : p.Uses P) (h : ∀ op, P op → R op) : p.Uses R := by
  induction p with
  | ret a => trivial
  | call op k ih => exact ⟨h op hp.1, fun ans => ih ans (hp.2 ans)⟩

/-- Every operation the program can ask for satisfies `P` and every result `Q`, whatever is
answered. -/
def UsesTo (P : Op → Prop) (Q : α → Prop) : Prog Op Ans α → Prop
  | .ret a => Q a
  | .call op k => P op ∧ ∀ ans, (k ans).UsesTo P Q

theorem UsesTo.bind {Q : α → Prop} {S : β → Prop} (hp : p.UsesTo P Q)
    (hf : ∀ a, Q a → (f a).UsesTo P S) : (p.bind f).UsesTo P S := by
  induction p with
  | ret a => exact hf a hp
  | call op k ih => exact ⟨hp.1, fun ans => ih ans (hp.2 ans)⟩

theorem UsesTo.uses {Q : α → Prop} (hp : p.UsesTo P Q) : p.Uses P := by
  induction p with
  | ret a => trivial
  | call op k ih => exact ⟨hp.1, fun ans => ih ans (hp.2 ans)⟩

theorem UsesTo.returns {K : Kernel Op Ans World Fault} {allow : Op → Fault → World → Prop}
    {Q : α → Prop} {w w' : World} {a : α} (hp : p.UsesTo P Q) (h : p.Returns K allow w a w') :
    Q a := by
  induction h with
  | ret a w => exact hp
  | call _ _ ih => exact ih (hp.2 _)

/-- What each of the operations guarantees, the program guarantees. -/
theorem Uses.wp {K : Kernel Op Ans World Fault} {allow : Op → Fault → World → Prop}
    {G : World → World → Prop} (hp : p.Uses P) (h : ∀ op f w, P op → G w (K.step op f w).2)
    (w : World) : p.wp K allow G (fun _ _ => True) w := by
  induction p generalizing w with
  | ret a => trivial
  | call op k ih => exact fun f _ => ⟨h op f w hp.1, ih _ (hp.2 _) _⟩

/-- Operations that change nothing leave only the result open. -/
theorem Uses.wp_unchanged {K : Kernel Op Ans World Fault} {allow : Op → Fault → World → Prop}
    {G : World → World → Prop} {Q : α → World → Prop} {w : World} (hp : p.Uses P)
    (h : ∀ op f w, P op → (K.step op f w).2 = w) (hG : G w w) (hQ : ∀ a, Q a w) :
    p.wp K allow G Q w := by
  induction p with
  | ret a => exact hQ a
  | call op k ih =>
    intro f _
    rw [h op f w hp.1]
    exact ⟨hG, ih _ (hp.2 _)⟩

/-- What each of the operations guarantees relates the ends of any part of a run. -/
theorem Uses.visits {K : Kernel Op Ans World Fault} {allow : Op → Fault → World → Prop}
    {G : World → World → Prop} {w w' : World} (hp : p.Uses P) (hrefl : ∀ w, G w w)
    (htrans : ∀ {u v w}, G u v → G v w → G u w)
    (h : ∀ op f w, P op → G w (K.step op f w).2) (hv : p.Visits K allow w w') : G w w' :=
  wp_visits_rel hrefl htrans (hp.wp h w) hv

end Uses

/-! ## Runs in which every operation meets the same fault -/

section Exec

variable (K : Kernel Op Ans World Fault) (fault : Fault)

/-- The result and the world at the end. -/
def exec : Prog Op Ans α → World → α × World
  | .ret a, w => (a, w)
  | .call op k, w => exec (k (K.step op fault w).1) (K.step op fault w).2

variable {K fault} {p : Prog Op Ans α} {f : α → Prog Op Ans β} {w w' : World}

theorem exec_bind : exec K fault (p.bind f) w =
    exec K fault (f (exec K fault p w).1) (exec K fault p w).2 := by
  induction p generalizing w with
  | ret a => rfl
  | call op k ih => exact ih _

theorem run_nil :
    p.run K fault [] w = ((exec K fault p w).1, (exec K fault p w).2, []) := by
  induction p generalizing w with
  | ret a => rfl
  | call op k ih => exact ih _

theorem exec_returns {allow : Op → Fault → World → Prop} (hfault : ∀ op w, allow op fault w) :
    p.Returns K allow w (exec K fault p w).1 (exec K fault p w).2 := by
  induction p generalizing w with
  | ret a => exact .ret a w
  | call op k ih => exact .call (hfault op w) (ih _)

/-- Operations that change nothing, and answer alike in two worlds, give the same result in both. -/
theorem Uses.exec_congr {P : Op → Prop} (hp : p.Uses P)
    (h : ∀ op, P op → (K.step op fault w).2 = w ∧ (K.step op fault w').2 = w' ∧
      (K.step op fault w').1 = (K.step op fault w).1) :
    (exec K fault p w').1 = (exec K fault p w).1 := by
  induction p with
  | ret a => rfl
  | call op k ih =>
    obtain ⟨hw, hw', hans⟩ := h op hp.1
    rw [exec, exec, hw, hw', hans]
    exact ih _ (hp.2 _)

theorem Uses.exec_unchanged {P : Op → Prop} (hp : p.Uses P)
    (h : ∀ op, P op → (K.step op fault w).2 = w) : (exec K fault p w).2 = w := by
  induction p with
  | ret a => rfl
  | call op k ih =>
    rw [exec, h op hp.1]
    exact ih _ (hp.2 _)

end Exec

/-! ## Programs that may raise -/

section Raising

variable {ε : Type} (K : Kernel Op Ans World Fault) (allow : Op → Fault → World → Prop)

/-- A program that ends with a value or with an error. -/
abbrev Raising (Op : Type) (Ans : Op → Type) (ε α : Type) : Type := ExceptT ε (Prog Op Ans) α

/-- One operation, whose answer is not an error. -/
def ask (op : Op) : Raising Op Ans ε (Ans op) := ExceptT.mk (.call op fun ans => .ret (.ok ans))

/-- The program with its error as a result. -/
def attempt {ε' : Type} (p : Raising Op Ans ε α) : Raising Op Ans ε' (Except ε α) :=
  ExceptT.mk (p.run.bind fun r => .ret (.ok r))

/-- The end of a raising program: a value that satisfies `Q` or an error that satisfies `E`. -/
def Ends (Q : α → World → Prop) (E : ε → World → Prop) : Except ε α → World → Prop
  | .ok a, w => Q a w
  | .error e, w => E e w

/-- `wp` of a program that may raise. -/
def wpE (G : World → World → Prop) (p : Raising Op Ans ε α) (Q : α → World → Prop)
    (E : ε → World → Prop) (w : World) : Prop :=
  p.run.wp K allow G (Ends Q E) w

variable {K allow} {G : World → World → Prop} {Q R : α → World → Prop} {E F : ε → World → Prop}
  {w : World}

theorem wpE_pure {a : α} : wpE K allow G (pure a) Q E w ↔ Q a w := Iff.rfl

theorem wpE_throw {e : ε} : wpE K allow G (throw e) Q E w ↔ E e w := Iff.rfl

theorem wpE_bind {p : Raising Op Ans ε α} {f : α → Raising Op Ans ε β} {Q : β → World → Prop} :
    wpE K allow G (p >>= f) Q E w ↔ wpE K allow G p (fun a => wpE K allow G (f a) Q E) E w := by
  refine Iff.trans (wp_bind (p := p.run)) ?_
  have hends : ∀ (r : Except ε α) (w : World), wp K allow G (ExceptT.bindCont f r) (Ends Q E) w ↔
      Ends (fun a => wpE K allow G (f a) Q E) E r w := by
    intro r w
    cases r <;> rfl
  exact ⟨fun h => wp_mono h fun r w => (hends r w).mp, fun h => wp_mono h fun r w => (hends r w).mpr⟩

theorem wpE_ask {op : Op} {Q : Ans op → World → Prop}
    (h : ∀ f, allow op f w → G w (K.step op f w).2 ∧ Q (K.step op f w).1 (K.step op f w).2) :
    wpE K allow G (ask op) Q E w := h

theorem wpE_tryCatch {p : Raising Op Ans ε α} {handler : ε → Raising Op Ans ε α} :
    wpE K allow G (tryCatch p handler) Q E w ↔
      wpE K allow G p Q (fun e => wpE K allow G (handler e) Q E) w := by
  refine Iff.trans (wp_bind (p := p.run)) ?_
  constructor
  · refine fun h => wp_mono h fun r w hr => ?_
    cases r <;> exact hr
  · refine fun h => wp_mono h fun r w hr => ?_
    cases r <;> exact hr

theorem wpE_attempt {ε' : Type} {p : Raising Op Ans ε α} {Q : Except ε α → World → Prop}
    {E : ε' → World → Prop} :
    wpE K allow G (attempt p) Q E w ↔
      wpE K allow G p (fun a => Q (.ok a)) (fun e => Q (.error e)) w := by
  refine Iff.trans (wp_bind (p := p.run)) ?_
  constructor
  · refine fun h => wp_mono h fun r w hr => ?_
    cases r <;> exact hr
  · refine fun h => wp_mono h fun r w hr => ?_
    cases r <;> exact hr

theorem wpE_mono {p : Raising Op Ans ε α} (h : wpE K allow G p Q E w) (hQ : ∀ a w, Q a w → R a w)
    (hE : ∀ e w, E e w → F e w) : wpE K allow G p R F w :=
  wp_mono h fun r w => match r with
    | .ok a => hQ a w
    | .error e => hE e w

theorem wpE_guarantee_mono {H : World → World → Prop} {p : Raising Op Ans ε α}
    (h : wpE K allow G p Q E w) (hG : ∀ w w', G w w' → H w w') : wpE K allow H p Q E w :=
  wp_guarantee_mono h hG

theorem wpE_and {H : World → World → Prop} {p : Raising Op Ans ε α} (hq : wpE K allow G p Q E w)
    (hr : wpE K allow H p R F w) :
    wpE K allow G p (fun a w => Q a w ∧ R a w) (fun e w => E e w ∧ F e w) w := by
  refine wp_guarantee_mono (wp_mono (wp_and hq hr) fun r w hr => ?_) fun _ _ h => h.1
  cases r <;> exact hr

/-- All results satisfy `P`, whatever happens to the world. -/
def Yields (K : Kernel Op Ans World Fault) (P : α → Prop) (p : Raising Op Ans ε α) : Prop :=
  ∀ w, wpE K (fun _ _ _ => True) (fun _ _ => True) p (fun a _ => P a) (fun _ _ => True) w

theorem yields_pure {P : α → Prop} {a : α} (h : P a) :
    Yields K P (pure a : Raising Op Ans ε α) := fun _ => h

theorem yields_throw {P : α → Prop} (e : ε) : Yields K P (throw e : Raising Op Ans ε α) :=
  fun _ => trivial

theorem yields_ask {op : Op} {P : Ans op → Prop} (h : ∀ f w, P (K.step op f w).1) :
    Yields K P (ask op : Raising Op Ans ε (Ans op)) :=
  fun w => wpE_ask fun f _ => ⟨trivial, h f w⟩

theorem Yields.bind {P : α → Prop} {R : β → Prop} {p : Raising Op Ans ε α}
    {f : α → Raising Op Ans ε β} (hp : Yields K P p) (hf : ∀ a, P a → Yields K R (f a)) :
    Yields K R (p >>= f) :=
  fun w => wpE_bind.mpr (wpE_mono (hp w) (fun a w ha => hf a ha w) fun _ _ h => h)

theorem yields_true (p : Raising Op Ans ε α) : Yields K (fun _ => True) p := by
  intro w
  show p.run.wp K _ _ _ w
  induction p.run generalizing w with
  | ret r => cases r <;> trivial
  | call op k ih => exact fun f _ => ⟨trivial, ih _ _⟩

/-- Only the last part of a program decides what it yields. -/
theorem yields_bind {P : β → Prop} {p : Raising Op Ans ε α} {f : α → Raising Op Ans ε β}
    (hf : ∀ a, Yields K P (f a)) : Yields K P (p >>= f) :=
  (yields_true p).bind fun a _ => hf a

/-! ### Invariants -/

variable (K allow)

/-- Every step keeps the invariant, whether the program ends with a value or an error. -/
def Preserves (I : World → Prop) (p : Raising Op Ans ε α) : Prop :=
  ∀ w, I w → wpE K allow (fun _ w' => I w') p (fun _ w' => I w') (fun _ w' => I w') w

variable {K allow} {I : World → Prop}

theorem preserves_pure (a : α) : Preserves K allow I (pure a : Raising Op Ans ε α) :=
  fun _ hw => hw

theorem preserves_throw (e : ε) : Preserves K allow I (throw e : Raising Op Ans ε α) :=
  fun _ hw => hw

theorem preserves_ask {op : Op} (h : ∀ f w, allow op f w → I w → I (K.step op f w).2) :
    Preserves K allow I (ask op : Raising Op Ans ε (Ans op)) :=
  fun w hw => wpE_ask fun f hf => ⟨h f w hf hw, h f w hf hw⟩

theorem Preserves.bind {p : Raising Op Ans ε α} {f : α → Raising Op Ans ε β}
    (hp : Preserves K allow I p) (hf : ∀ a, Preserves K allow I (f a)) :
    Preserves K allow I (p >>= f) :=
  fun w hw => wpE_bind.mpr (wpE_mono (hp w hw) (fun a w => hf a w) fun _ _ h => h)

theorem Preserves.tryCatch {p : Raising Op Ans ε α} {handler : ε → Raising Op Ans ε α}
    (hp : Preserves K allow I p) (hf : ∀ e, Preserves K allow I (handler e)) :
    Preserves K allow I (tryCatch p handler) :=
  fun w hw => wpE_tryCatch.mpr (wpE_mono (hp w hw) (fun _ _ h => h) fun e w => hf e w)

/-! ### Guarantees -/

variable (K allow)

/-- Every step of the program is in the relation, from wherever it starts. -/
def Guarantees (G : World → World → Prop) (p : Raising Op Ans ε α) : Prop :=
  ∀ w, wpE K allow G p (fun _ _ => True) (fun _ _ => True) w

variable {K allow}

theorem guarantees_pure (a : α) : Guarantees K allow G (pure a : Raising Op Ans ε α) :=
  fun _ => trivial

theorem guarantees_throw (e : ε) : Guarantees K allow G (throw e : Raising Op Ans ε α) :=
  fun _ => trivial

theorem Guarantees.bind {p : Raising Op Ans ε α} {f : α → Raising Op Ans ε β}
    (hp : Guarantees K allow G p) (hf : ∀ a, Guarantees K allow G (f a)) :
    Guarantees K allow G (p >>= f) :=
  fun w => wpE_bind.mpr (wpE_mono (hp w) (fun a w _ => hf a w) fun _ _ h => h)

theorem Guarantees.attempt {ε' : Type} {p : Raising Op Ans ε α} (hp : Guarantees K allow G p) :
    Guarantees K allow G (attempt p : Raising Op Ans ε' (Except ε α)) :=
  fun w => wpE_attempt.mpr (hp w)

/-- Operations that each keep the invariant keep it together. -/
theorem Preserves.of_uses {P : Op → Prop} {I : World → Prop} {p : Raising Op Ans ε α}
    (hp : p.run.Uses P) (h : ∀ op f w, P op → I w → I (K.step op f w).2) : Preserves K allow I p := by
  intro w hw
  have hends : ∀ (r : Except ε α) (w : World), I w → Ends (fun _ w' => I w') (fun _ w' => I w') r w := by
    intro r w hw
    cases r <;> exact hw
  unfold wpE
  generalize p.run = prog at hp
  induction prog generalizing w with
  | ret r => exact hends r w hw
  | call op k ih => exact fun f _ => ⟨h op f w hp.1 hw, ih _ _ (h op f w hp.1 hw) (hp.2 _)⟩

/-! ### What a program asks for -/

/-- Every operation the program can ask for satisfies `P`, whatever is answered. -/
def UsesE (P : Op → Prop) (p : Raising Op Ans ε α) : Prop := p.run.Uses P

variable {P : Op → Prop}

theorem usesE_pure (a : α) : UsesE P (pure a : Raising Op Ans ε α) := trivial

theorem usesE_throw (e : ε) : UsesE P (throw e : Raising Op Ans ε α) := trivial

theorem usesE_ask {op : Op} (h : P op) : UsesE P (ask op : Raising Op Ans ε (Ans op)) :=
  ⟨h, fun _ => trivial⟩

theorem UsesE.bind {p : Raising Op Ans ε α} {f : α → Raising Op Ans ε β} (hp : UsesE P p)
    (hf : ∀ a, UsesE P (f a)) : UsesE P (p >>= f) := by
  apply Uses.bind hp
  intro r
  cases r with
  | ok a => exact hf a
  | error e => trivial

theorem UsesE.attempt {ε' : Type} {p : Raising Op Ans ε α} (hp : UsesE P p) :
    UsesE P (attempt p : Raising Op Ans ε' (Except ε α)) :=
  Uses.bind hp fun _ => trivial

/-- What each of the operations guarantees, the program guarantees. -/
theorem UsesE.guarantees {p : Raising Op Ans ε α} (hp : UsesE P p)
    (h : ∀ op f w, P op → G w (K.step op f w).2) : Guarantees K allow G p := by
  intro w
  apply wp_mono (hp.wp h w)
  intro r w _
  cases r <;> trivial

end Raising

end Prog

end TimeCapsule.Lib
