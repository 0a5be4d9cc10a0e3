import TimeCapsule.Lib.Prog

/-!
# Logged runs

A run against an oracle: the environment answers every operation as it likes, with a result or an
error, and the log keeps what was asked and answered.  A program that raises the errors it meets
leaves the operations it stands for in the log, all of them successful.
-/

namespace TimeCapsule.Lib.Prog

section Logged

/-- An operation with its answer. -/
abbrev Event (Op : Type) (Ans : Op → Type) : Type := (op : Op) × Ans op

/-- The environment answers as it likes, and what is asked and answered is kept in order. -/
def logged : Kernel Op Ans (List (Event Op Ans)) ((op : Op) → Ans op) where
  step op answer log := (answer op, log ++ [⟨op, answer op⟩])

variable {P : Op → Prop} {p : Prog Op Ans α} {log log' : List (Event Op Ans)}
  {allow : Op → ((op : Op) → Ans op) → List (Event Op Ans) → Prop}

/-- What holds of all that a program can ask for holds of all that is in the log. -/
theorem Uses.logged (hp : p.Uses P) (hlog : ∀ event ∈ log, P event.1)
    (hv : p.Visits logged allow log log') : ∀ event ∈ log', P event.1 := by
  let G (l l' : List (Event Op Ans)) : Prop := (∀ event ∈ l, P event.1) → ∀ event ∈ l', P event.1
  have htrans : ∀ {u v w}, G u v → G v w → G u w := fun h h' hu => h' (h hu)
  have hstep : ∀ op answer l, P op → G l (Prog.logged.step op answer l).2 := by
    intro op answer l hop hl event hevent
    rcases List.mem_append.mp hevent with hevent | hevent
    · exact hl event hevent
    · rw [List.mem_singleton.mp hevent]
      exact hop
  have hrun : G log log' := hp.visits (G := G) (fun _ h => h) htrans hstep hv
  exact hrun hlog

end Logged

/-! ## Fallible operations -/

section Fallible

variable {Op ε : Type} {Res : Op → Type}

/-- The answer of an operation that may fail. -/
abbrev Fallible (ε : Type) (Res : Op → Type) (op : Op) : Type := Except ε (Res op)

/-- A program over such operations, which raises what it does not handle. -/
abbrev Failing (Op ε : Type) (Res : Op → Type) (α : Type) : Type := Raising Op (Fallible ε Res) ε α

/-- What is asked of the environment in such a run. -/
abbrev FailingLog (Op ε : Type) (Res : Op → Type) : Type := List (Event Op (Fallible ε Res))

/-- One operation, whose error is raised. -/
def fallible (op : Op) : Failing Op ε Res (Res op) := ExceptT.mk (Prog.op op)

/-- The error is raised again as another one. -/
def raising {α : Type} (p : Failing Op ε Res α) (convert : ε → ε) :
    Failing Op ε Res α :=
  tryCatch p fun e => throw (convert e)

/-- Whether an operation did what it was asked for: an error did not, a result as `good` says. -/
def succeeds (good : (op : Op) → Res op → Bool) (op : Op) : Fallible ε Res op → Bool
  | .ok result => good op result
  | .error _ => false

variable (good : (op : Op) → Res op → Bool)

/-- The successful operations of a run, in order. -/
def succeeded (log : FailingLog Op ε Res) : List Op :=
  (log.filter fun event => succeeds good event.1 event.2).map fun event => event.1

@[simp] theorem succeeded_append (log log' : FailingLog Op ε Res) :
    succeeded good (log ++ log') = succeeded good log ++ succeeded good log' := by
  simp [succeeded]

theorem mem_of_mem_succeeded {good : (op : Op) → Res op → Bool}
    {log : FailingLog Op ε Res} {op : Op} (h : op ∈ succeeded good log) :
    ∃ answer, ⟨op, answer⟩ ∈ log := by
  obtain ⟨event, hevent, rfl⟩ := List.mem_map.mp h
  exact ⟨event.2, (List.mem_filter.mp hevent).1⟩

theorem wpE_fallible {G : FailingLog Op ε Res → FailingLog Op ε Res → Prop} {op : Op}
    {allow : Op → ((op : Op) → Fallible ε Res op) → FailingLog Op ε Res → Prop}
    {Q : Res op → FailingLog Op ε Res → Prop} {E : ε → FailingLog Op ε Res → Prop}
    {log : FailingLog Op ε Res} (h : ∀ answer, G log (log ++ [⟨op, answer⟩]) ∧
      Ends Q E answer (log ++ [⟨op, answer⟩])) : wpE logged allow G (fallible op) Q E log :=
  fun answer _ => h (answer op)

/-! ### What a part of a run asks for -/

/-- Every operation the program can ask for satisfies `P`.  A structure, so that the program is not
unfolded where a rule is looked for. -/
structure Confined {α : Type} (P : Op → Prop) (p : Failing Op ε Res α) : Prop where
  uses : UsesE P p

section Confined

variable {α β : Type} {P : Op → Prop} {p : Failing Op ε Res α} {f : α → Failing Op ε Res β}

theorem confined_pure (a : α) : Confined P (pure a : Failing Op ε Res α) := ⟨usesE_pure a⟩

theorem confined_throw (e : ε) : Confined P (throw e : Failing Op ε Res α) := ⟨usesE_throw e⟩

theorem confined_fallible {op : Op} (h : P op) :
    Confined P (fallible op : Failing Op ε Res (Res op)) :=
  ⟨h, fun _ => trivial⟩

theorem Confined.bind (hp : Confined P p) (hf : ∀ a, Confined P (f a)) : Confined P (p >>= f) :=
  ⟨UsesE.bind hp.uses fun a => (hf a).uses⟩

theorem Confined.attempt (hp : Confined P p) :
    Confined P (attempt p : Failing Op ε Res (Except ε α)) :=
  ⟨UsesE.attempt hp.uses⟩

theorem Confined.raising (hp : Confined P p) (convert : ε → ε) : Confined P (raising p convert) := by
  constructor
  apply Uses.bind hp.uses
  intro r
  cases r <;> trivial

end Confined

/-! ### What a part of a run leaves in the log -/

variable (allow : Op → ((op : Op) → Fallible ε Res op) → FailingLog Op ε Res → Prop)

/-- The successful steps of the program are in the relation with its result; an error only leaves
the log longer. -/
structure Achieves {α : Type} (p : Failing Op ε Res α) (R : α → List Op → Prop) : Prop where
  spec : ∀ log, wpE logged allow (fun _ _ => True) p
    (fun a log' => ∃ new, log' = log ++ new ∧ R a (succeeded good new))
    (fun _ log' => log <+: log') log

/-- These steps are among the successful ones, in this order. -/
def Leaves {α : Type} (p : Failing Op ε Res α) (ops : List Op) : Prop :=
  Achieves good allow p fun _ done => ops.Sublist done

variable {good allow} {α β : Type} {p : Failing Op ε Res α} {f : α → Failing Op ε Res β}
  {R : α → List Op → Prop}

theorem achieves_pure {a : α} (h : R a []) : Achieves good allow (pure a : Failing Op ε Res α) R :=
  ⟨fun log => ⟨[], (List.append_nil log).symm, h⟩⟩

theorem achieves_throw (e : ε) : Achieves good allow (throw e : Failing Op ε Res α) R :=
  ⟨fun _ => List.prefix_refl _⟩

theorem Achieves.mono {S : α → List Op → Prop} (hp : Achieves good allow p R)
    (h : ∀ a done, R a done → S a done) : Achieves good allow p S := by
  constructor
  intro log
  refine wpE_mono (hp.spec log) ?_ fun _ _ h => h
  rintro a log' ⟨new, rfl, hnew⟩
  exact ⟨new, rfl, h a _ hnew⟩

theorem Achieves.bind {S : α → β → List Op → Prop} {T : β → List Op → Prop}
    (hp : Achieves good allow p R) (hf : ∀ a, Achieves good allow (f a) (S a))
    (h : ∀ a b done done', R a done → S a b done' → T b (done ++ done')) :
    Achieves good allow (p >>= f) T := by
  constructor
  intro log
  refine wpE_bind.mpr (wpE_mono (hp.spec log) ?_ fun _ _ h => h)
  rintro a log' ⟨new, rfl, hnew⟩
  refine wpE_mono ((hf a).spec (log ++ new)) ?_ ?_
  · rintro b log' ⟨new', rfl, hnew'⟩
    refine ⟨new ++ new', List.append_assoc _ _ _, ?_⟩
    rw [succeeded_append]
    exact h a b _ _ hnew hnew'
  · intro e log' hprefix
    exact (List.prefix_append log new).trans hprefix

theorem Achieves.attempt (hp : Achieves good allow p R) :
    Achieves good allow (attempt p) fun r done => ∀ a, r = .ok a → R a done := by
  constructor
  intro log
  refine wpE_attempt.mpr (wpE_mono (hp.spec log) ?_ ?_)
  · rintro a log' ⟨new, rfl, hnew⟩
    refine ⟨new, rfl, ?_⟩
    rintro _ ⟨⟩
    exact hnew
  · rintro e log' ⟨new, rfl⟩
    refine ⟨new, rfl, ?_⟩
    rintro _ ⟨⟩

theorem Achieves.raising (hp : Achieves good allow p R) (convert : ε → ε) :
    Achieves good allow (raising p convert) R := by
  constructor
  intro log
  exact wpE_tryCatch.mpr (wpE_mono (hp.spec log) (fun _ _ h => h) fun _ _ h => h)

theorem achieves_fallible (op : Op) : Achieves good allow (fallible op) fun a done =>
    done = if good op a then [op] else [] := by
  constructor
  intro log answer _
  refine ⟨trivial, ?_⟩
  cases h : answer op with
  | error e =>
    have hstep : logged.step op answer log = (.error e, log ++ [⟨op, .error e⟩]) := by
      simp only [logged, h]
    simp only [hstep]
    exact List.prefix_append _ _
  | ok a =>
    have hstep : logged.step op answer log = (.ok a, log ++ [⟨op, .ok a⟩]) := by
      simp only [logged, h]
    simp only [hstep]
    refine ⟨[⟨op, .ok a⟩], rfl, ?_⟩
    cases hs : good op a <;> simp [succeeded, succeeds, hs]

theorem leaves_nil (p : Failing Op ε Res α) : Leaves good allow p [] := by
  constructor
  intro log
  show p.run.wp logged allow _ _ log
  suffices h : ∀ (prog : Prog Op (Fallible ε Res) (Except ε α)) (new : FailingLog Op ε Res),
      prog.wp logged allow (fun _ _ => True) (Ends (fun _ log' => ∃ new, log' = log ++ new ∧
        [].Sublist (succeeded good new)) fun _ log' => log <+: log') (log ++ new) by
    simpa using h p.run []
  intro prog
  induction prog with
  | ret r =>
    intro new
    cases r with
    | error e => exact List.prefix_append _ _
    | ok a => exact ⟨new, rfl, List.nil_sublist _⟩
  | call op k ih =>
    intro new answer _
    refine ⟨trivial, ?_⟩
    have h := ih (answer op) (new ++ [⟨op, answer op⟩])
    rwa [← List.append_assoc] at h

theorem leaves_fallible {op : Op} (h : ∀ a, good op a = true) :
    Leaves good allow (fallible op) [op] := by
  refine (achieves_fallible op).mono ?_
  rintro a _ rfl
  simp [h a]

theorem Leaves.bind {ops ops' : List Op} (hp : Leaves good allow p ops)
    (hf : ∀ a, Leaves good allow (f a) ops') : Leaves good allow (p >>= f) (ops ++ ops') :=
  Achieves.bind hp hf fun _ _ _ _ h h' => h.append h'

/-- What is achieved by the rest is not undone by what comes before it. -/
theorem Achieves.later {S : β → List Op → Prop} (hf : ∀ a, Achieves good allow (f a) S)
    (hS : ∀ b done done', S b done' → S b (done ++ done')) : Achieves good allow (p >>= f) S :=
  Achieves.bind (leaves_nil p) hf fun _ b done done' _ h => hS b done done' h

/-- Only what follows decides the result. -/
theorem Achieves.after {P : β → Prop} (hf : ∀ a, Achieves good allow (f a) fun b _ => P b) :
    Achieves good allow (p >>= f) fun b _ => P b :=
  Achieves.later hf fun _ _ _ h => h

/-- Only what follows counts. -/
theorem Leaves.after {ops : List Op} (hf : ∀ a, Leaves good allow (f a) ops) :
    Leaves good allow (p >>= f) ops :=
  (leaves_nil p).bind hf

/-- Only what comes first counts. -/
theorem Leaves.first {ops : List Op} (hp : Leaves good allow p ops) :
    Leaves good allow (p >>= f) ops := by
  have h := hp.bind fun a => leaves_nil (f a)
  rwa [List.append_nil] at h

/-! ### Runs without errors -/

section Completes

variable {answer : (op : Op) → Fallible ε Res op} {P : α → Prop} {Q : β → Prop}

/-- Against this oracle the program does not raise, and its result is one of these. -/
structure Completes (answer : (op : Op) → Fallible ε Res op) (p : Failing Op ε Res α)
    (P : α → Prop) : Prop where
  spec : ∀ log, ∃ a, (exec logged answer p.run log).1 = .ok a ∧ P a

theorem completes_pure {a : α} (h : P a) : Completes answer (pure a : Failing Op ε Res α) P :=
  ⟨fun _ => ⟨a, rfl, h⟩⟩

theorem completes_fallible {op : Op} {result : Res op} (h : answer op = .ok result) :
    Completes answer (fallible op) fun a => a = result :=
  ⟨fun _ => ⟨result, h, rfl⟩⟩

theorem Completes.bind (hp : Completes answer p P) (hf : ∀ a, P a → Completes answer (f a) Q) :
    Completes answer (p >>= f) Q := by
  constructor
  intro log
  obtain ⟨a, hok, ha⟩ := hp.spec log
  obtain ⟨b, hok', hb⟩ := (hf a ha).spec (exec logged answer p.run log).2
  refine ⟨b, ?_, hb⟩
  have hbind : exec logged answer (p >>= f).run log =
      exec logged answer (ExceptT.bindCont f (exec logged answer p.run log).1)
        (exec logged answer p.run log).2 :=
    exec_bind
  rw [hbind, hok]
  exact hok'

theorem Completes.attempt (hp : Completes answer p P) :
    Completes answer (Prog.attempt p) fun r : Except ε α => ∃ a, r = .ok a ∧ P a := by
  constructor
  intro log
  obtain ⟨a, hok, ha⟩ := hp.spec log
  refine ⟨.ok a, ?_, a, rfl, ha⟩
  refine (congrArg Prod.fst exec_bind).trans ?_
  rw [hok]
  rfl

theorem Completes.raising (hp : Completes answer p P) (convert : ε → ε) :
    Completes answer (Prog.raising p convert) P := by
  constructor
  intro log
  obtain ⟨a, hok, ha⟩ := hp.spec log
  refine ⟨a, ?_, ha⟩
  refine (congrArg Prod.fst exec_bind).trans ?_
  rw [ExceptT.run] at hok
  rw [hok]
  rfl

end Completes

end Fallible

end TimeCapsule.Lib.Prog
