import TimeCapsule.Telemetry.Runs

/-!
# Only debug programs that the server allows are run

While a process has the lock to itself, the reserved files are as it has left them.  So what it runs in the
end is what it has fetched and verified.
-/

namespace TimeCapsule.Telemetry

open Lib Lib.JsonText

section Authorized

variable {crypto : Crypto} {ulongMax : Nat} {p child : Pid} {w w' : World} {done done' : List Act} {files : Files}
  {α : Type} {Q : α → World → Prop}

/-! ## A process with the lock -/

/-- The process has the lock to itself and knows the files; this is what it has done since it took it. -/
structure Owns (p : Pid) (done : List Act) (files : Files) (w : World) : Prop where
  alone : w.holders = [p]
  files : w.files = files
  cycle : ∃ before cycle, w.trace = before ++ (p, .locked) :: cycle ∧ acts p cycle = done
  held : Act.closed ∉ done

theorem acts_append (p : Pid) (trace trace' : List (Pid × Act)) :
    acts p (trace ++ trace') = acts p trace ++ acts p trace' := List.filterMap_append

theorem acts_own (p : Pid) (act : Act) : acts p [(p, act)] = [act] := by
  rw [acts, List.filterMap_cons, if_pos (beq_self_eq_true p)]
  rfl

theorem acts_others {others : List (Pid × Act)} (h : ∀ e ∈ others, e.1 ≠ p) : acts p others = [] := by
  rw [acts, List.filterMap_eq_nil_iff]
  intro e he
  exact if_neg (by simpa using h e he)

theorem mem_acts {act : Act} {trace : List (Pid × Act)} (h : (p, act) ∈ trace) : act ∈ acts p trace := by
  rw [acts, List.mem_filterMap]
  exact ⟨(p, act), h, if_pos (beq_self_eq_true p)⟩

theorem Owns.relies (h : Owns p done files w) (hrely : Relies p w w') : Owns p done files w' := by
  obtain ⟨before, cycle, htrace, hdone⟩ := h.cycle
  obtain ⟨others, htrace', hothers⟩ := hrely.trace
  have hmem : p ∈ w.holders := h.alone ▸ List.mem_singleton_self p
  refine ⟨hrely.alone h.alone, (hrely.holds hmem).2.trans h.files, ⟨before, cycle ++ others, ?_, ?_⟩, h.held⟩
  · rw [htrace', htrace, List.append_assoc, List.cons_append]
  · rw [acts_append, acts_others hothers, List.append_nil, hdone]

/-- One more thing that it does, with what it does to the files. -/
theorem Owns.did (h : Owns p done files w) {act : Act} {files' : Files} (hact : act ≠ .closed)
    (halone : w'.holders = w.holders) (hfiles : w'.files = files') (htrace : w'.trace = w.trace ++ [(p, act)]) :
    Owns p (done ++ [act]) files' w' := by
  obtain ⟨before, cycle, hbefore, hdone⟩ := h.cycle
  refine ⟨halone.trans h.alone, hfiles, ⟨before, cycle ++ [(p, act)], ?_, ?_⟩, fun hmem => ?_⟩
  · rw [htrace, hbefore, List.append_assoc, List.cons_append]
  · rw [acts_append, acts_own, hdone]
  · rcases List.mem_append.mp hmem with hmem | hmem
    · exact h.held hmem
    · exact hact (List.mem_singleton.mp hmem).symm

theorem Owns.logged (h : Owns p done files w) {act : Act} (hact : act ≠ .closed) :
    Owns p (done ++ [act]) files (w.log p act) := h.did hact rfl h.files rfl

theorem Owns.setFile (h : Owns p done files w) {act : Act} (hact : act ≠ .closed) (file : Reserved)
    (entry : Option Entry) :
    Owns p (done ++ [act]) (Function.update files file entry) ((w.setFile file entry).log p act) :=
  by
  refine h.did hact rfl ?_ rfl
  rw [← h.files]
  rfl

/-! ## Rules -/

/-- A step as it has to be. -/
structure Proper (crypto : Crypto) (p : Pid) (w w' : World) (spawned : Option (Pid × Job)) : Prop where
  inv : OnlyAllowed crypto w'.trace
  guar : Guarantees p w w'
  ready : ∀ child job, spawned = some (child, job) → child ≠ p → Ready crypto job child w'

theorem Proper.same (hinv : OnlyAllowed crypto w.trace) : Proper crypto p w w none :=
  ⟨hinv, guarantees_refl p w, fun _ _ h => by cases h⟩

theorem Proper.logged (hinv : OnlyAllowed crypto w.trace) {act : Act}
    (hact : ∀ content holders, act ≠ .executed content holders) : Proper crypto p w (w.log p act) none :=
  ⟨hinv.other hact, guarantees_log p w act, fun _ _ h => by cases h⟩

theorem Proper.setFile (hinv : OnlyAllowed crypto w.trace) (halone : w.holders = [p]) (file : Reserved)
    (entry : Option Entry) {act : Act} (hact : ∀ content holders, act ≠ .executed content holders) :
    Proper crypto p w ((w.setFile file entry).log p act) none :=
  ⟨OnlyAllowed.other hinv hact, guarantees_setFile halone file entry act, fun _ _ h => by cases h⟩

theorem Proper.closed (hinv : OnlyAllowed crypto w.trace) : Proper crypto p w (w.close p) none :=
  ⟨OnlyAllowed.other hinv fun _ _ => Act.noConfusion, guarantees_close p w, fun _ _ h => by cases h⟩

/-- One call. -/
theorem safe_ask {op : Op} {f : Ans op → Agent α}
    (h : ∀ w₁ ans w₂, Relies p w w₁ → OnlyAllowed crypto w₁.trace → step p op w₁ ans w₂ →
      Proper crypto p w₁ w₂ (spawned op ans) ∧ (f ans).Safe (contract crypto ulongMax) p Q w₂) :
    (ask op >>= f).Safe (contract crypto ulongMax) p Q w := by
  intro w₁ ans w₂ hrely hinv hstep
  obtain ⟨⟨hinv', hguar, hready⟩, hrest⟩ := h w₁ ans w₂ hrely hinv hstep
  exact ⟨hinv', hguar, hready, hrest⟩

/-- One call of a process with the lock. -/
theorem safe_owned {op : Op} {f : Ans op → Agent α} (h : Owns p done files w)
    (hstep : ∀ w₁ ans w₂, Owns p done files w₁ → OnlyAllowed crypto w₁.trace → step p op w₁ ans w₂ →
      Proper crypto p w₁ w₂ (spawned op ans) ∧ (f ans).Safe (contract crypto ulongMax) p Q w₂) :
    (ask op >>= f).Safe (contract crypto ulongMax) p Q w :=
  safe_ask fun w₁ ans w₂ hrely => hstep w₁ ans w₂ (h.relies hrely)

/-- The call changes nothing that others see. -/
def Quiet : Op → Prop
  | .stopped | .time | .enabled | .sleep | .getpid | .lstatRoot | .openRoot | .fstatRoot | .setCloexec
  | .openUrandom | .acp _ | .uname | .uptime | .deployReleaseTag | .closeFile | .waitpid | .clearCloexec
  | .setenv => True
  | _ => False

theorem Quiet.step {op : Op} (h : Quiet op) {ans : Ans op} (hstep : step p op w ans w') :
    w' = w ∧ spawned op ans = none := by
  cases op <;> first | exact ⟨hstep, rfl⟩ | exact h.elim

/-- A quiet call leaves everything as it was. -/
theorem safe_quiet {op : Op} {f : Ans op → Agent α} {A : World → Prop} (hquiet : Quiet op)
    (hA : ∀ {w w'}, Relies p w w' → A w → A w') (hw : A w)
    (h : ∀ ans w', OnlyAllowed crypto w'.trace → A w' → (f ans).Safe (contract crypto ulongMax) p Q w') :
    (ask op >>= f).Safe (contract crypto ulongMax) p Q w := by
  refine safe_ask fun w₁ ans w₂ hrely hinv hstep => ?_
  obtain ⟨rfl, hnone⟩ := hquiet.step hstep
  exact ⟨hnone ▸ .same hinv, h ans w₂ hinv (hA hrely hw)⟩

theorem safe_pure {a : α} (h : ∀ w', Relies p w w' → Q a w') :
    (pure a : Agent α).Safe (contract crypto ulongMax) p Q w := fun w' hrely _ => h w' hrely

theorem safe_bind {β : Type} {prog : Agent α} {f : α → Agent β} {S : β → World → Prop}
    (hprog : prog.Safe (contract crypto ulongMax) p Q w)
    (hf : ∀ a w, OnlyAllowed crypto w.trace → Q a w → (f a).Safe (contract crypto ulongMax) p S w)
    (hinv : OnlyAllowed crypto w.trace) : (prog >>= f).Safe (contract crypto ulongMax) p S w :=
  hprog.bind hf hinv

/-- A program of quiet calls leaves everything as it was. -/
theorem safe_of_quiet {prog : Agent α} {R : α → Prop} {A : World → Prop} (huses : prog.UsesTo Quiet R)
    (hA : ∀ {w w'}, Relies p w w' → A w → A w') (hw : A w) :
    prog.Safe (contract crypto ulongMax) p (fun a w => R a ∧ A w) w := by
  refine huses.safe hA (fun op w ans w' hquiet hinv hw hstep => ?_) hw
  obtain ⟨rfl, hnone⟩ := hquiet.step hstep
  exact ⟨hinv, guarantees_refl p w', hnone, hw⟩

/-! ## What is sent -/

theorem safe_readNonce (fuel : Nat) {draws : List Bytes} (hle : draws.flatten.length ≤ 16)
    (hfuel : 16 ≤ draws.flatten.length + fuel) (h : Owns p (done ++ draws.map Act.drew) files w) :
    (readNonce fuel draws.flatten).Safe (contract crypto ulongMax) p (fun read w => ∃ draws : List Bytes,
      (∀ bytes ∈ read, bytes = draws.flatten ∧ draws.flatten.length = 16) ∧
        Owns p (done ++ draws.map Act.drew) files w) w := by
  induction fuel generalizing draws w with
  | zero =>
    refine safe_pure fun w' hrely => ⟨draws, ?_, h.relies hrely⟩
    rintro bytes ⟨⟩
    exact ⟨rfl, by omega⟩
  | succ fuel ih =>
    rw [readNonce]
    by_cases hall : 16 ≤ draws.flatten.length
    · rw [if_pos hall]
      refine safe_pure fun w' hrely => ⟨draws, ?_, h.relies hrely⟩
      rintro bytes ⟨⟩
      exact ⟨rfl, by omega⟩
    rw [if_neg hall]
    refine safe_owned h fun w₁ ans w₂ howns hinv hstep => ?_
    cases ans with
    | none =>
      obtain rfl : w₂ = w₁ := hstep
      refine ⟨.same hinv, safe_pure fun w' hrely => ⟨draws, ?_, howns.relies hrely⟩⟩
      rintro bytes ⟨⟩
    | some bytes =>
      obtain ⟨hpos, hbytes, rfl⟩ := hstep
      refine ⟨.logged hinv fun _ _ => Act.noConfusion, ?_⟩
      have hflatten : draws.flatten ++ bytes = (draws ++ [bytes]).flatten := by simp
      have hlength : (draws ++ [bytes]).flatten.length = draws.flatten.length + bytes.length := by
        rw [← hflatten, List.length_append]
      have hlogged : Owns p _ files (w₁.log p (.drew bytes)) := howns.logged Act.noConfusion
      rw [List.append_assoc, ← List.map_singleton, ← List.map_append] at hlogged
      show (readNonce fuel (draws.flatten ++ bytes)).Safe _ _ _ _
      rw [hflatten]
      exact ih (by omega) (by omega) hlogged

/-- A nonce is 16 bytes that were drawn for it. -/
theorem safe_nonce (h : Owns p done files w) :
    telemetryNonce.Safe (contract crypto ulongMax) p (fun nonce w => ∃ draws : List Bytes,
      (∀ n ∈ nonce, draws.flatten.length = 16 ∧ n = hexText draws.flatten) ∧
        Owns p (done ++ draws.map Act.drew) files w) w := by
  have hnone : Owns p (done ++ ([] : List Bytes).map Act.drew) files w := by simpa using h
  refine safe_quiet trivial (fun hrely h => h.relies hrely) hnone fun ans w₁ hinv₁ h₁ => ?_
  cases ans with
  | false =>
    refine safe_pure fun w' hrely => ⟨[], ?_, h₁.relies hrely⟩
    rintro n ⟨⟩
  | true =>
    refine safe_bind (safe_readNonce 16 (Nat.zero_le _) (Nat.le_refl _) h₁) (fun read w₂ _ hdraws => ?_) hinv₁
    obtain ⟨draws, hbytes, howns⟩ := hdraws
    refine safe_pure fun w' hrely => ⟨draws, ?_, howns.relies hrely⟩
    intro n hn
    obtain ⟨bytes, hmem, rfl⟩ := Option.map_eq_some_iff.mp hn
    obtain ⟨rfl, hlength⟩ := hbytes bytes hmem
    exact ⟨hlength, rfl⟩

theorem usesTo_ask {R : α → Prop} {op : Op} {f : Ans op → Agent α} (hquiet : Quiet op)
    (h : ∀ ans, (f ans).UsesTo Quiet R) : (ask op >>= f).UsesTo Quiet R := ⟨hquiet, h⟩

theorem usesTo_bind {β : Type} {R : α → Prop} {prog : Agent β} {f : β → Agent α}
    (hprog : prog.UsesTo Quiet fun _ => True) (h : ∀ b, (f b).UsesTo Quiet R) : (prog >>= f).UsesTo Quiet R :=
  hprog.bind fun b _ => h b

theorem usesTo_readAcpText (key : String) : (readAcpText key).UsesTo Quiet fun _ => True := by
  refine usesTo_ask trivial fun ans => ?_
  cases ans <;> trivial

theorem usesTo_buildRouterId (syap syam synm : Bytes) :
    (buildRouterId crypto syap syam synm).UsesTo Quiet fun _ => True := by
  refine usesTo_ask trivial fun sysn => ?_
  cases sysn with
  | abort => trivial
  | ok sysn => trivial
  | unavailable =>
    refine usesTo_bind (usesTo_readAcpText "waMA") fun wama => ?_
    cases wama with
    | none => trivial
    | some wama =>
      refine usesTo_bind (usesTo_readAcpText "raMA") fun rama => ?_
      cases rama <;> trivial

/-- A payload has the nonce in it. -/
theorem usesTo_payload (reason nonce : Bytes) :
    (telemetryPayload crypto ulongMax reason nonce).UsesTo Quiet fun payload => ∀ json ∈ payload,
      ∃ fields : PayloadFields, fields.nonce = nonce ∧ payloadText heartbeatMaxJson fields = some json := by
  have hnone : (pure none : Agent (Option Bytes)).UsesTo Quiet fun payload => ∀ json ∈ payload,
      ∃ fields : PayloadFields, fields.nonce = nonce ∧ payloadText heartbeatMaxJson fields = some json := by
    rintro json ⟨⟩
  refine usesTo_bind (usesTo_readAcpText "syAP") fun syap => ?_
  cases syap with
  | none => exact hnone
  | some syap =>
  refine usesTo_bind (usesTo_readAcpText "syAM") fun syam => ?_
  cases syam with
  | none => exact hnone
  | some syam =>
  refine usesTo_bind (usesTo_readAcpText "syNm") fun synm => ?_
  cases synm with
  | none => exact hnone
  | some synm =>
  refine usesTo_ask trivial fun systemName => usesTo_ask trivial fun uptimeSec => usesTo_ask trivial fun tag => ?_
  refine usesTo_bind (usesTo_buildRouterId _ _ _) fun routerId => ?_
  cases routerId with
  | none => exact hnone
  | some routerId =>
  refine usesTo_ask trivial fun stopped => ?_
  cases stopped with
  | true => exact hnone
  | false => exact usesTo_ask trivial fun now => usesTo_ask trivial fun pid => fun json hjson => ⟨_, rfl, hjson⟩

/-! ## The workspace -/

/-- Nothing is known any more, and nothing has to be. -/
theorem relies_true : ∀ {w w' : World}, Relies p w w' → True → True := fun _ _ => trivial

theorem safe_lockFailed (errno : Errno) :
    (lockFailed errno).Safe (contract crypto ulongMax) p (fun locked w => ∀ u, locked = .ok u →
      ∃ files, Owns p [] files w) w := by
  refine safe_ask fun w₁ ans w₂ _ hinv hstep => ?_
  obtain rfl : w₂ = w₁.close p := hstep
  exact ⟨.closed hinv, safe_pure fun w' _ u h => by cases h⟩

/-- Whoever gets the lock has it alone. -/
theorem safe_lock : telemetryLock.Safe (contract crypto ulongMax) p (fun locked w => ∀ u, locked = .ok u →
    ∃ files, Owns p [] files w) w := by
  have herror : ∀ {errno : Errno} {w : World}, (pure (.error errno) : Agent (Except Errno Unit)).Safe
      (contract crypto ulongMax) p (fun locked w => ∀ u, locked = .ok u → ∃ files, Owns p [] files w) w :=
    safe_pure fun w' _ u h => by cases h
  refine safe_quiet trivial relies_true trivial fun before w₁ _ _ => ?_
  cases before with
  | error errno => exact herror
  | ok before =>
  show (if (!before.trusted) = true then _ else _ : Agent (Except Errno Unit)).Safe _ _ _ _
  split
  · exact herror
  refine safe_quiet trivial relies_true trivial fun opened w₂ _ _ => ?_
  cases opened with
  | error errno => exact herror
  | ok _ =>
  refine safe_quiet trivial relies_true trivial fun opened w₃ _ _ => ?_
  cases opened with
  | error errno => exact safe_lockFailed errno
  | ok opened =>
  show (if before.dev ≠ opened.dev ∨ before.ino ≠ opened.ino then _ else _ : Agent (Except Errno Unit)).Safe _ _ _ _
  split
  · exact safe_lockFailed .eagain
  refine safe_ask fun w₄ ans w₅ _ hinv hstep => ?_
  cases ans with
  | error errno =>
    obtain rfl : w₅ = w₄ := hstep
    exact ⟨.same hinv, safe_lockFailed errno⟩
  | ok _ =>
    obtain ⟨hfree, rfl⟩ := hstep
    have howns : Owns p [] w₄.files (({ w₄ with holders := [p] }).log p .locked) :=
      ⟨rfl, rfl, ⟨w₄.trace, [], rfl, rfl⟩, List.not_mem_nil⟩
    refine ⟨⟨OnlyAllowed.other hinv fun _ _ => Act.noConfusion, guarantees_lock hfree p, fun _ _ h => by cases h⟩, ?_⟩
    refine safe_quiet trivial (fun hrely h => h.relies hrely) howns fun set w₆ _ h₆ => ?_
    cases set with
    | true => exact safe_pure fun w' hrely _ _ => ⟨w₄.files, h₆.relies hrely⟩
    | false => exact safe_lockFailed .other

/-- A file is removed, or still there; the other one is left alone. -/
theorem safe_removeFile (file : Reserved) (h : Owns p done files w) :
    (telemetryRemoveFile file).Safe (contract crypto ulongMax) p (fun gone w => ∃ more files',
      Owns p (done ++ more) files' w ∧ (∀ other, other ≠ file → files' other = files other) ∧
        (gone = true → files' file = none)) w := by
  refine safe_owned h fun w₁ ans w₂ howns hinv hstep => ?_
  cases ans with
  | ok _ =>
    obtain ⟨-, rfl⟩ := hstep
    refine ⟨.setFile hinv howns.alone file none fun _ _ => Act.noConfusion, safe_pure fun w' hrely => ?_⟩
    exact ⟨[.removed file], _, (howns.setFile Act.noConfusion file none).relies hrely,
      fun other hne => Function.update_of_ne hne _ _, fun _ => Function.update_self _ _ _⟩
  | error errno =>
    obtain ⟨habsent, rfl⟩ := hstep
    refine ⟨.same hinv, safe_pure fun w' hrely => ⟨[], files, ?_, fun _ _ => rfl, fun hgone => ?_⟩⟩
    · rw [List.append_nil]
      exact howns.relies hrely
    · rw [← howns.files]
      exact habsent (beq_iff_eq.mp hgone)

theorem safe_cleanup (h : Owns p done files w) (hinv : OnlyAllowed crypto w.trace) :
    telemetryCleanupLocked.Safe (contract crypto ulongMax) p (fun removed w => ∃ more files',
      Owns p (done ++ more) files' w ∧ (removed = true → ∀ file, files' file = none)) w := by
  refine safe_bind (safe_removeFile .signature h) (fun signature w₁ hinv₁ h₁ => ?_) hinv
  obtain ⟨more, files₁, howns, -, hsignature⟩ := h₁
  refine safe_bind (safe_removeFile .debug howns) (fun debug w₂ _ h₂ => ?_) hinv₁
  obtain ⟨more', files₂, howns', hother, hdebug⟩ := h₂
  refine safe_pure fun w' hrely => ⟨more ++ more', files₂, ?_, fun hremoved file => ?_⟩
  · rw [← List.append_assoc]
    exact howns'.relies hrely
  · obtain ⟨hs, hd⟩ := Bool.and_eq_true_iff.mp hremoved
    cases file with
    | debug => exact hdebug hd
    | signature => exact (hother .signature (by decide)).trans (hsignature hs)

/-- Anybody can close the lock. -/
theorem safe_close {β : Type} {b : β} :
    (ask .closeRoot >>= fun _ => pure b : Agent β).Safe (contract crypto ulongMax) p (fun _ _ => True) w := by
  refine safe_ask fun w₁ ans w₂ _ hinv hstep => ?_
  obtain rfl : w₂ = w₁.close p := hstep
  exact ⟨.closed hinv, safe_pure fun _ _ => trivial⟩

theorem safe_recover (hinv : OnlyAllowed crypto w.trace) :
    telemetryRecover.Safe (contract crypto ulongMax) p (fun _ _ => True) w := by
  refine safe_bind safe_lock (fun locked w₁ hinv₁ h₁ => ?_) hinv
  cases locked with
  | error errno => exact safe_pure fun _ _ => trivial
  | ok u =>
    obtain ⟨files, howns⟩ := h₁ u rfl
    exact safe_bind (safe_cleanup howns hinv₁) (fun _ _ _ _ => safe_close) hinv₁

/-! ## The debug job -/

/-- A new file has what was written to it so far. -/
def Written (file : Reserved) (ino : Nat) (data : Bytes) (off : Nat) (files files' : Files) : Prop :=
  files' file = some (.file ino (data.take off) false) ∧ ∀ other, other ≠ file → files' other = files other

theorem safe_writeLoop {file : Reserved} {ino : Nat} {data : Bytes} (fuel off : Nat) {files' : Files}
    (hoff : off ≤ data.length) (h : Owns p done files' w) (hwritten : Written file ino data off files files') :
    (writeLoop file ino data fuel off).Safe (contract crypto ulongMax) p (fun end' w => ∃ more files' off',
      Owns p (done ++ more) files' w ∧ Written file ino data off' files files' ∧
        ∀ n ∈ end', off' = n ∧ n ≤ data.length) w := by
  induction fuel generalizing off done files' w with
  | zero =>
    refine safe_pure fun w' hrely => ⟨[], files', off, by simpa using h.relies hrely, hwritten, ?_⟩
    rintro n ⟨⟩
    exact ⟨rfl, hoff⟩
  | succ fuel ih =>
    have hstay : ∀ {w}, Owns p done files' w → (pure (some off) : Agent (Option Nat)).Safe (contract crypto ulongMax) p
        (fun end' w => ∃ more files' off', Owns p (done ++ more) files' w ∧ Written file ino data off' files files' ∧
          ∀ n ∈ end', off' = n ∧ n ≤ data.length) w := by
      refine fun h => safe_pure fun w' hrely => ⟨[], files', off, by simpa using h.relies hrely, hwritten, ?_⟩
      rintro n ⟨⟩
      exact ⟨rfl, hoff⟩
    rw [writeLoop]
    by_cases hall : data.length ≤ off
    · rw [if_pos hall]
      exact hstay h
    rw [if_neg hall]
    refine safe_quiet trivial (fun hrely h => h.relies hrely) h fun stopped w₁ _ h₁ => ?_
    cases stopped with
    | true => exact hstay h₁
    | false =>
    refine safe_owned h₁ fun w₂ ans w₃ howns hinv hstep => ?_
    cases ans with
    | none =>
      obtain rfl : w₃ = w₂ := hstep
      refine ⟨.same hinv, safe_pure fun w' hrely => ⟨[], files', off, by simpa using howns.relies hrely, hwritten, ?_⟩⟩
      rintro n ⟨⟩
    | some n =>
      obtain ⟨hn, rfl⟩ := hstep
      rw [List.length_drop] at hn
      refine ⟨.setFile hinv howns.alone file _ fun _ _ => Act.noConfusion, ?_⟩
      have hlogged := @Owns.setFile p w₂ done files' howns (.wrote file ((data.drop off).take n)) Act.noConfusion file
        (Entry.written ino ((data.drop off).take n) (w₂.files file))
      have hmore : Written file ino data (off + n) files (Function.update files' file
          (Entry.written ino ((data.drop off).take n) (w₂.files file))) := by
        constructor
        · rw [Function.update_self, howns.files, hwritten.1, Entry.written, if_pos rfl, List.take_add]
        · intro other hne
          rw [Function.update_of_ne hne]
          exact hwritten.2 other hne
      show (if n = 0 then pure none else writeLoop file ino data fuel (off + n) : Agent (Option Nat)).Safe _ _ _ _
      split
      · refine safe_pure fun w' hrely => ⟨_, _, off + n, hlogged.relies hrely, hmore, ?_⟩
        rintro n ⟨⟩
      · have hrest := ih (off + n) (by omega) hlogged hmore
        refine hrest.mono fun end' w h => ?_
        obtain ⟨more, files'', off', howns', hwritten', hend⟩ := h
        exact ⟨_ ++ more, files'', off', by rwa [← List.append_assoc], hwritten', hend⟩

/-- A download is a new file with all of the data, or it fails. -/
theorem safe_writeDownload (file : Reserved) (data : Bytes) (h : Owns p done files w) :
    (writeDownload file data).Safe (contract crypto ulongMax) p (fun complete w => ∃ more files',
      Owns p (done ++ more) files' w ∧ (∀ other, other ≠ file → files' other = files other) ∧
        (complete = true → ∃ ino, files' file = some (.file ino data false))) w := by
  refine safe_owned h fun w₁ ans w₂ howns hinv hstep => ?_
  cases ans with
  | none =>
    obtain rfl : w₂ = w₁ := hstep
    refine ⟨.same hinv, safe_pure fun w' hrely => ⟨[], files, by simpa using howns.relies hrely, fun _ _ => rfl, ?_⟩⟩
    exact fun h => by cases h
  | some ino =>
    obtain ⟨-, rfl⟩ := hstep
    have hproper := Proper.setFile hinv howns.alone file (some (.file ino [] false))
      (fun content holders => (Act.noConfusion : Act.created file ≠ .executed content holders))
    refine ⟨hproper, ?_⟩
    have hcreated := @Owns.setFile p w₁ done files howns (.created file) Act.noConfusion file (some (.file ino [] false))
    have hwritten : Written file ino data 0 files (Function.update files file (some (.file ino [] false))) :=
      ⟨Function.update_self _ _ _, fun other hne => Function.update_of_ne hne _ _⟩
    refine safe_bind (safe_writeLoop data.length 0 (Nat.zero_le _) hcreated hwritten) (fun end' w₃ _ h₃ => ?_)
      hproper.inv
    obtain ⟨more, files', off, howns', hwritten', hend⟩ := h₃
    refine safe_quiet trivial (fun hrely h => h.relies hrely) howns' fun closed w₄ _ h₄ => ?_
    refine safe_pure fun w' hrely => ⟨[.created file] ++ more, files', ?_, hwritten'.2, fun hcomplete => ⟨ino, ?_⟩⟩
    · rw [← List.append_assoc]
      exact h₄.relies hrely
    · obtain ⟨-, hall⟩ := Bool.and_eq_true_iff.mp hcomplete
      obtain ⟨rfl, -⟩ := hend data.length (beq_iff_eq.mp hall)
      rw [hwritten'.1, List.take_length]

/-- The acts of a cycle up to the reply that allows a debug program. -/
def Asked (crypto : Crypto) (done : List Act) : Prop :=
  ∃ (draws : List Bytes) (fields : PayloadFields) (payload body : Bytes) (response : TelemetryResponse),
    draws.flatten.length = 16 ∧ fields.nonce = hexText draws.flatten ∧
      payloadText heartbeatMaxJson fields = some payload ∧
      telemetryResponseParse body = .ok (0, response) ∧ response.debug = true ∧
      telemetryAuthorized crypto response payload = true ∧
      (draws.map Act.drew ++ [Act.http .endpoint (some payload) (some body)]).Sublist done

theorem Asked.allowed (h : Asked crypto done) {content signature : Bytes}
    (hverify : telemetryVerify crypto content signature = true) (more rest : List Act) :
    AllowedDebug crypto content (done ++ [.http .debug none (some content)] ++ more ++
      [.http .debugSignature none (some signature)] ++ rest) := by
  obtain ⟨draws, fields, payload, body, response, hlength, hnonce, hpayload, hparse, hdebug, hauthorized, hdone⟩ := h
  refine ⟨draws, fields, payload, body, response, signature, hlength, hnonce, hpayload, hparse, hdebug, hauthorized,
    hverify, ?_⟩
  have hsplit : debugActs draws payload body content signature =
      (draws.map Act.drew ++ [Act.http .endpoint (some payload) (some body)]) ++
        [.http .debug none (some content)] ++ [] ++ [.http .debugSignature none (some signature)] ++ [] := by
    simp [debugActs]
  rw [hsplit]
  exact (((hdone.append (.refl _)).append (List.nil_sublist more)).append (.refl _)).append (List.nil_sublist rest)

/-- The child gets the lock, and finds the program that its parent was allowed to run. -/
theorem proper_forkDebug {ino : Nat} {content : Bytes} (h : Owns p done files w) (hinv : OnlyAllowed crypto w.trace)
    (hfile : files .debug = some (.file ino content true)) (hallowed : AllowedDebug crypto content done)
    (child : Pid) : Proper crypto p w (w.fork p child) (some (child, .debugChild)) := by
  refine ⟨OnlyAllowed.other hinv fun _ _ => Act.noConfusion, guarantees_fork p child w, ?_⟩
  rintro child' job hspawned -
  obtain ⟨rfl, rfl⟩ := Prod.mk.inj (Option.some.inj hspawned)
  obtain ⟨before, cycle, htrace, hdone⟩ := h.cycle
  refine ⟨?_, ino, content, h.files ▸ hfile, p, before, cycle, [], ?_, hdone ▸ hallowed, fun hmem => ?_,
    List.not_mem_nil⟩
  · show child ∈ if w.holders.any (· == p) then child :: w.holders else w.holders
    rw [if_pos (by rw [h.alone]; simp)]
    exact List.mem_cons_self
  · show w.trace ++ [(p, .forked child)] = _
    rw [htrace, List.append_assoc, List.cons_append]
  · exact h.held (hdone ▸ mem_acts hmem)

theorem safe_one {b : Nat} {w : World} :
    (pure b : Agent Nat).Safe (contract crypto ulongMax) p (fun _ _ => True) w := safe_pure fun _ _ => trivial

theorem safe_debugJob (reason : Bytes) (hasked : Asked crypto done) (h : Owns p done files w) :
    (telemetryDebugJob crypto reason).Safe (contract crypto ulongMax) p (fun _ _ => True) w := by
  refine safe_owned h fun w₁ binary w₂ howns hinv hstep => ?_
  obtain ⟨-, rfl⟩ := hstep
  refine ⟨.logged hinv fun _ _ => Act.noConfusion, ?_⟩
  cases binary with
  | none => exact safe_one
  | some binary =>
  have h₁ : Owns p _ files _ := @Owns.logged p w₁ done files howns (.http .debug none (some binary)) Act.noConfusion
  refine safe_quiet trivial (fun hrely h => h.relies hrely) h₁ fun stopped w₂ hinv₂ h₂ => ?_
  cases stopped with
  | true => exact safe_one
  | false =>
  show (if binary.isEmpty = true then pure 1 else _ : Agent Nat).Safe _ _ _ _
  split
  · exact safe_one
  refine safe_bind (safe_writeDownload .debug binary h₂) (fun complete w₃ _ h₃ => ?_) hinv₂
  obtain ⟨more, files₃, h₃, -, hcomplete⟩ := h₃
  cases complete with
  | false => exact safe_one
  | true =>
  obtain ⟨ino, hfile⟩ := hcomplete rfl
  refine safe_owned h₃ fun w₄ signature w₅ howns hinv hstep => ?_
  obtain ⟨-, rfl⟩ := hstep
  refine ⟨.logged hinv fun _ _ => Act.noConfusion, ?_⟩
  cases signature with
  | none => exact safe_one
  | some signature =>
  have h₄ : Owns p _ files₃ _ :=
    @Owns.logged p w₄ _ files₃ howns (.http .debugSignature none (some signature)) Act.noConfusion
  refine safe_quiet trivial (fun hrely h => h.relies hrely) h₄ fun stopped w₅ hinv₅ h₅ => ?_
  cases stopped with
  | true => exact safe_one
  | false =>
  refine safe_bind (safe_writeDownload .signature signature h₅) (fun complete w₆ hinv₆ h₆ => ?_) hinv₅
  obtain ⟨more', files₆, h₆, hkept, -⟩ := h₆
  cases complete with
  | false => exact safe_one
  | true =>
  refine safe_bind (safe_removeFile .signature h₆) (fun gone w₇ _ h₇ => ?_) hinv₆
  obtain ⟨more'', files₇, h₇, hkept', -⟩ := h₇
  cases gone with
  | false => exact safe_one
  | true =>
  show (if (!telemetryVerify crypto binary signature) = true then pure 1 else _ : Agent Nat).Safe _ _ _ _
  split
  · exact safe_one
  next hverified =>
  refine safe_quiet trivial (fun hrely h => h.relies hrely) h₇ fun stopped w₈ _ h₈ => ?_
  cases stopped with
  | true => exact safe_one
  | false =>
  refine safe_owned h₈ fun w₉ ans w₁₀ howns hinv hstep => ?_
  cases ans with
  | false =>
    obtain rfl : w₁₀ = w₉ := hstep
    exact ⟨.same hinv, safe_one⟩
  | true =>
  obtain rfl : w₁₀ = (w₉.setFile .debug (Entry.madeExecutable (w₉.files .debug))).log p .madeExecutable := hstep
  refine ⟨.setFile hinv howns.alone .debug _ fun _ _ => Act.noConfusion, ?_⟩
  have h₉ := @Owns.setFile p w₉ _ files₇ howns .madeExecutable Act.noConfusion .debug
    (Entry.madeExecutable (w₉.files .debug))
  have hexecutable : Entry.madeExecutable (w₉.files .debug) = some (.file ino binary true) := by
    rw [howns.files, hkept' .debug (by decide), hkept .debug (by decide), hfile]
    rfl
  refine safe_owned h₉ fun w₁₁ child w₁₂ howns hinv hstep => ?_
  cases child with
  | none =>
    obtain rfl : w₁₂ = w₁₁ := hstep
    exact ⟨.same hinv, safe_one⟩
  | some child =>
  obtain rfl : w₁₂ = w₁₁.fork p child := hstep
  refine ⟨proper_forkDebug howns hinv ((Function.update_self _ _ _).trans hexecutable) ?_ child, ?_⟩
  · have hallowed := hasked.allowed (by simpa using hverified) more (more' ++ more'' ++ [.madeExecutable])
    simpa only [List.append_assoc] using hallowed
  · refine safe_quiet trivial relies_true trivial fun exited w₁₃ _ _ => ?_
    cases exited <;> exact safe_one

/-! ## Cycles -/

theorem safe_cycle (reason : Bytes) (h : Owns p done files w) (hinv : OnlyAllowed crypto w.trace) :
    (telemetryCycle crypto ulongMax reason).Safe (contract crypto ulongMax) p (fun _ _ => True) w := by
  refine safe_bind (safe_nonce h) (fun nonce w₁ hinv₁ h₁ => ?_) hinv
  obtain ⟨draws, hnonce, h₁⟩ := h₁
  cases nonce with
  | none => exact safe_one
  | some nonce =>
  obtain ⟨hlength, rfl⟩ := hnonce nonce rfl
  refine safe_bind (safe_of_quiet (usesTo_payload reason _) (fun hrely h => h.relies hrely) h₁)
    (fun payload w₂ hinv₂ h₂ => ?_) hinv₁
  obtain ⟨hfields, h₂⟩ := h₂
  cases payload with
  | none => exact safe_one
  | some payload =>
  obtain ⟨fields, hfield, hpayload⟩ := hfields payload rfl
  refine safe_quiet trivial (fun hrely h => h.relies hrely) h₂ fun stopped w₃ _ h₃ => ?_
  cases stopped with
  | true => exact safe_one
  | false =>
  refine safe_owned h₃ fun w₄ body w₅ howns hinv hstep => ?_
  obtain ⟨-, rfl⟩ := hstep
  refine ⟨.logged hinv fun _ _ => Act.noConfusion, ?_⟩
  cases body with
  | none => exact safe_one
  | some body =>
  have h₅ : Owns p _ files _ :=
    @Owns.logged p w₄ _ files howns (.http .endpoint (some payload) (some body)) Act.noConfusion
  cases hparse : telemetryResponseParse body with
  | error e =>
    dsimp only
    rw [hparse]
    exact safe_one
  | ok parsed =>
  obtain ⟨rc, response⟩ := parsed
  dsimp only
  rw [hparse]
  by_cases hrc : rc = 0
  · subst hrc
    show (if (!response.debug) = true then pure 0 else _ : Agent Nat).Safe _ _ _ _
    split
    · exact safe_one
    next hdebug =>
    show (if (!telemetryAuthorized crypto response payload) = true then pure 1 else _ : Agent Nat).Safe _ _ _ _
    split
    · exact safe_one
    next hauthorized =>
    refine safe_quiet trivial (fun hrely h => h.relies hrely) h₅ fun stopped w₆ _ h₆ => ?_
    cases stopped with
    | true => exact safe_one
    | false =>
    refine safe_debugJob reason ⟨draws, fields, payload, body, response, hlength, hfield, hpayload, hparse, ?_, ?_,
      ?_⟩ h₆
    · simpa using hdebug
    · simpa using hauthorized
    · rw [List.append_assoc]
      exact List.sublist_append_right _ _
  · split
    next h => exact absurd (Prod.mk.inj (Except.ok.inj h)).1 hrc
    · exact safe_one

theorem safe_lockedPass (daemon : Bool) (reason : Bytes) (now : Nat) (due : Bool) (schedule : TelemetrySchedule)
    (h : Owns p [] files w) (hinv : OnlyAllowed crypto w.trace) :
    (lockedPass crypto ulongMax daemon reason now due schedule).Safe (contract crypto ulongMax) p
      (fun _ _ => True) w := by
  refine safe_bind (safe_cleanup h hinv) (fun removed w₁ hinv₁ h₁ => ?_) hinv
  obtain ⟨more, files₁, h₁, -⟩ := h₁
  cases removed with
  | false => exact safe_close
  | true =>
  cases due with
  | false => exact safe_close
  | true =>
  refine safe_quiet trivial (fun hrely h => h.relies hrely) h₁ fun stopped w₂ hinv₂ h₂ => ?_
  cases stopped with
  | true => exact safe_close
  | false =>
  refine safe_bind (safe_cycle _ h₂ hinv₂) (fun rc w₃ _ _ => ?_) hinv₂
  refine safe_ask fun w₄ ans w₅ _ hinv hstep => ?_
  obtain rfl : w₅ = w₄.close p := hstep
  have hclosed : Proper crypto p w₄ (w₄.close p) none := .closed hinv
  exact ⟨hclosed, safe_bind (safe_recover hclosed.inv) (fun _ _ _ _ => safe_pure fun _ _ => trivial) hclosed.inv⟩

theorem safe_pass (daemon : Bool) (reason : Bytes) (now : Nat) (due : Bool) (s : LoopState)
    (hinv : OnlyAllowed crypto w.trace) :
    (pass crypto ulongMax daemon reason now due s).Safe (contract crypto ulongMax) p (fun _ _ => True) w := by
  refine safe_bind safe_lock (fun locked w₁ hinv₁ h₁ => ?_) hinv
  cases locked with
  | error errno => exact safe_pure fun _ _ => trivial
  | ok u =>
    obtain ⟨files, howns⟩ := h₁ u rfl
    refine safe_bind (safe_lockedPass daemon reason now due s.schedule howns hinv₁) (fun result w₂ _ _ => ?_) hinv₁
    exact safe_quiet trivial relies_true trivial fun _ _ _ _ => safe_pure fun _ _ => trivial

theorem safe_mainLoop (daemon : Bool) (reason : Bytes) (rounds : Nat) (s : LoopState) :
    (mainLoop crypto ulongMax daemon reason rounds s).Safe (contract crypto ulongMax) p (fun _ _ => True) w := by
  induction rounds generalizing s w with
  | zero => exact safe_one
  | succ rounds ih =>
    have hrest : ∀ (s : LoopState) {w : World}, (if !daemon then pure s.rc
        else do
          if !(← ask .stopped) then ask .sleep
          if ← ask .stopped then pure s.rc else mainLoop crypto ulongMax daemon reason rounds s : Agent Nat).Safe
          (contract crypto ulongMax) p (fun _ _ => True) w := by
      intro s w
      cases daemon with
      | false => exact safe_one
      | true =>
      refine safe_quiet trivial relies_true trivial fun stopped w₁ _ _ => ?_
      have hagain : ∀ {w : World}, (ask .stopped >>= fun stopped => if stopped then pure s.rc
          else mainLoop crypto ulongMax true reason rounds s : Agent Nat).Safe (contract crypto ulongMax) p
          (fun _ _ => True) w := by
        refine safe_quiet trivial relies_true trivial fun stopped w₂ _ _ => ?_
        cases stopped with
        | true => exact safe_one
        | false => exact ih s
      cases stopped with
      | true => exact hagain
      | false => exact safe_quiet trivial relies_true trivial fun _ _ _ _ => hagain
    refine safe_quiet trivial relies_true trivial fun now w₁ _ _ => ?_
    refine safe_quiet trivial relies_true trivial fun enabled w₂ hinv₂ _ => ?_
    cases enabled with
    | false => exact safe_one
    | true =>
    rw [if_neg (by decide : ¬ (!true) = true)]
    dsimp only
    split
    · exact safe_bind (safe_pass daemon reason now _ s hinv₂) (fun s' w₃ _ _ => hrest s') hinv₂
    · exact hrest s

theorem safe_main (mode : Mode) (hinv : OnlyAllowed crypto w.trace) :
    (main crypto ulongMax mode).Safe (contract crypto ulongMax) p (fun _ _ => True) w := by
  cases mode with
  | daemon rounds => exact safe_mainLoop true (ascii "manual") rounds ⟨⟨0, false⟩, 0, 0, 0⟩
  | once reason => exact safe_mainLoop false reason 1 ⟨⟨0, false⟩, 0, 0, 0⟩
  | cleanup => exact safe_recover hinv
  | printPayload reason =>
    refine safe_bind (safe_of_quiet (usesTo_payload reason []) relies_true trivial) (fun payload w₁ _ _ => ?_) hinv
    cases payload <;> exact safe_one

/-! ## Debug programs -/

/-- What a debug program does with the lock, the files stay as they are. -/
theorem safe_debugWork (steps : Nat) :
    (debugWork steps).Safe (contract crypto ulongMax) p (fun _ _ => True) w := by
  induction steps generalizing w with
  | zero => exact safe_pure fun _ _ => trivial
  | succ steps ih =>
    refine safe_ask fun w₁ ans w₂ _ hinv hstep => ?_
    cases ans with
    | own =>
      obtain rfl : w₂ = w₁ := hstep
      exact ⟨.same hinv, ih⟩
    | closed =>
      obtain rfl : w₂ = w₁.close p := hstep
      exact ⟨.closed hinv, ih⟩
    | forked child steps' =>
      obtain rfl : w₂ = w₁.fork p child := hstep
      refine ⟨⟨OnlyAllowed.other hinv fun _ _ => Act.noConfusion, guarantees_fork p child w₁, ?_⟩, ih⟩
      rintro child' job hspawned -
      obtain ⟨rfl, rfl⟩ := Prod.mk.inj (Option.some.inj hspawned)
      trivial

theorem ReadyChild.relies (h : ReadyChild crypto p w) (hrely : Relies p w w') : ReadyChild crypto p w' := by
  obtain ⟨hmem, ino, content, hfile, hallowed⟩ := h
  obtain ⟨hmem', hfiles⟩ := hrely.holds hmem
  obtain ⟨others, htrace, hothers⟩ := hrely.trace
  exact ⟨hmem', ino, content, hfiles ▸ hfile, htrace ▸ hallowed.append hothers⟩

/-- The child runs what its parent was allowed to run, with the lock. -/
theorem safe_debugChild (h : ReadyChild crypto p w) :
    debugChild.Safe (contract crypto ulongMax) p (fun _ _ => True) w := by
  refine safe_quiet trivial (fun hrely h => h.relies hrely) h fun kept w₁ _ h₁ => ?_
  cases kept with
  | false => exact safe_pure fun _ _ => trivial
  | true =>
  refine safe_quiet trivial (fun hrely h => h.relies hrely) h₁ fun set w₂ _ h₂ => ?_
  cases set with
  | false => exact safe_pure fun _ _ => trivial
  | true =>
  refine safe_ask fun w₃ ans w₄ hrely hinv hstep => ?_
  obtain ⟨hmem, ino, content, hfile, hallowed⟩ := h₂.relies hrely
  cases ans with
  | none =>
    obtain rfl : w₄ = w₃ := hstep
    exact ⟨.same hinv, safe_pure fun _ _ => trivial⟩
  | some steps =>
    obtain ⟨content', hrun, rfl⟩ := hstep
    rw [hfile] at hrun
    have hsame : content' = content := by
      rcases hrun with ⟨ino', heq⟩ | heq
      · exact (Entry.file.inj (Option.some.inj heq)).2.1.symm
      · cases heq
    subst hsame
    refine ⟨⟨hinv.append fun content holders heq => ?_, guarantees_log p w₃ _, fun _ _ h => by cases h⟩,
      safe_debugWork steps⟩
    obtain ⟨rfl, rfl⟩ := Act.executed.inj heq
    exact ⟨hallowed, hmem⟩

theorem safe_program (job : Job) (p : Pid) (w : World) (hinv : OnlyAllowed crypto w.trace)
    (hready : Ready crypto job p w) :
    (program crypto ulongMax job).Safe (contract crypto ulongMax) p (fun _ _ => True) w := by
  cases job with
  | agent mode => exact safe_bind (safe_main mode hinv) (fun _ _ _ _ => safe_pure fun _ _ => trivial) hinv
  | debugChild => exact safe_debugChild hready
  | work steps => exact safe_debugWork steps

theorem onlyAllowed_booted (w : World) (h : Booted w) : OnlyAllowed crypto w.trace := by
  intro before child content holders after hsplit
  rw [h.2] at hsplit
  exact absurd hsplit.symm (by simp)

end Authorized

/-! ## Runs -/

section Runs

variable {crypto : Crypto} {ulongMax : Nat} {s s' : (device crypto ulongMax).State}

/-- However many agents run, are stopped or killed, and whatever the server answers and the device had left
over: every program that was run had been fetched by a process that drew a nonce, posted a payload with it
and got a reply for just this payload that allows it, verified what it fetched, and has held the lock from
before the nonce until the program ran. -/
theorem debug_executed_only_allowed (h : (device crypto ulongMax).Reachable Booted s) :
    OnlyAllowed crypto s.world.trace :=
  ((contract crypto ulongMax).holds_of_reachable safe_program onlyAllowed_booted h).1

end Runs

/-! ## A run with a debug program -/

section Run

variable {crypto : Crypto} {ulongMax : Nat} {p : Pid} {w : World}

/-- The call can have this answer. -/
def possible (w : World) : (op : Op) → Ans op → Bool
  | .flock, .ok _ => w.holders.isEmpty
  | .readUrandom count, some bytes => 0 < bytes.length && bytes.length ≤ count
  | .http _ _ limit, reply => reply.all fun body => body.length ≤ limit
  | .unlink file, .ok _ => (w.files file).isSome
  | .unlink file, .error errno => errno != .enoent || (w.files file).isNone
  | .create file, some _ => (w.files file).isNone
  | .write _ _ data, some n => n ≤ data.length
  | .execDebug, some _ => match w.files .debug with
    | some (.file _ _ executable) => executable
    | _ => false
  | _, _ => true

/-- What the call leaves. -/
def perform (p : Pid) (w : World) : (op : Op) → Ans op → World
  | .flock, .ok _ => ({ w with holders := [p] }).log p .locked
  | .closeRoot, _ => w.close p
  | .readUrandom _, some bytes => w.log p (.drew bytes)
  | .http url payload _, reply => w.log p (.http url payload reply)
  | .unlink file, .ok _ => (w.setFile file none).log p (.removed file)
  | .create file, some ino => (w.setFile file (some (.file ino [] false))).log p (.created file)
  | .write file ino data, some n =>
      (w.setFile file (Entry.written ino (data.take n) (w.files file))).log p (.wrote file (data.take n))
  | .chmodDebug, true => (w.setFile .debug (Entry.madeExecutable (w.files .debug))).log p .madeExecutable
  | .forkDebug _, some child => w.fork p child
  | .execDebug, some _ => match w.files .debug with
    | some (.file _ content _) => w.log p (.executed content w.holders)
    | _ => w
  | .work, .forked child _ => w.fork p child
  | .work, .closed => w.close p
  | _, _ => w

theorem step_perform {op : Op} {ans : Ans op} (h : possible w op ans = true) : step p op w ans (perform p w op ans) := by
  cases op with
  | flock =>
    cases ans with
    | ok u => exact ⟨List.isEmpty_iff.mp h, rfl⟩
    | error errno => rfl
  | readUrandom count =>
    cases ans with
    | none => rfl
    | some bytes =>
      obtain ⟨hpos, hle⟩ := Bool.and_eq_true_iff.mp h
      exact ⟨of_decide_eq_true hpos, of_decide_eq_true hle, rfl⟩
  | http url payload limit =>
    refine ⟨fun body hbody => ?_, rfl⟩
    obtain rfl : ans = some body := hbody
    exact of_decide_eq_true h
  | unlink file =>
    cases ans with
    | ok u => exact ⟨Option.isSome_iff_ne_none.mp h, rfl⟩
    | error errno =>
      refine ⟨?_, rfl⟩
      rintro rfl
      exact Option.isNone_iff_eq_none.mp h
  | create file =>
    cases ans with
    | none => rfl
    | some ino => exact ⟨Option.isNone_iff_eq_none.mp h, rfl⟩
  | write file ino data =>
    cases ans with
    | none => rfl
    | some n => exact ⟨of_decide_eq_true h, rfl⟩
  | chmodDebug => cases ans <;> rfl
  | forkDebug reason => cases ans <;> rfl
  | execDebug =>
    cases ans with
    | none => rfl
    | some steps =>
      unfold possible at h
      cases hfile : w.files .debug with
      | none =>
        simp only [hfile] at h
        cases h
      | some entry =>
        cases entry with
        | other =>
          simp only [hfile] at h
          cases h
        | file ino content executable =>
          simp only [hfile] at h
          subst h
          refine ⟨content, .inl ⟨ino, hfile⟩, ?_⟩
          simp only [perform, hfile]
  | work => cases ans <;> rfl
  | _ => rfl

/-- The process makes its next call, which is answered as the environment says. -/
def nextState (answer : World → (op : Op) → Ans op) (s : (device crypto ulongMax).State) (p : Pid) :
    Option (device crypto ulongMax).State :=
  match s.pool p with
  | some (.call op k) =>
      let ans := answer s.world op
      let child := spawned op ans
      if possible s.world op ans && child.all fun c => (s.pool c.1).isNone then
        some ⟨(device crypto ulongMax).withSpawned (Function.update s.pool p (some (k ans))) child,
          perform p s.world op ans⟩
      else none
  | _ => none

theorem nextState_step {answer : World → (op : Op) → Ans op} {s s' : (device crypto ulongMax).State}
    (h : nextState answer s p = some s') : (device crypto ulongMax).Step s s' := by
  rw [nextState] at h
  split at h
  next op k hprog =>
    dsimp only at h
    split_ifs at h with hok
    obtain ⟨hpossible, hfree⟩ := Bool.and_eq_true_iff.mp hok
    rw [← Option.some.inj h]
    refine .run hprog (step_perform hpossible) fun c job hspawned => ?_
    have hspawned : spawned op (answer s.world op) = some (c, job) := hspawned
    rw [hspawned] at hfree
    exact Option.isNone_iff_eq_none.mp hfree
  next => cases h

/-- The processes make their calls in this order. -/
def runAll (answer : World → (op : Op) → Ans op) (s : (device crypto ulongMax).State) (order : List Pid) :
    Option (device crypto ulongMax).State := order.foldlM (nextState answer) s

theorem runAll_steps {answer : World → (op : Op) → Ans op} {s s' : (device crypto ulongMax).State} {order : List Pid}
    (h : runAll answer s order = some s') : Relation.ReflTransGen (device crypto ulongMax).Step s s' := by
  induction order generalizing s with
  | nil =>
    obtain rfl := Option.some.inj h
    exact .refl
  | cons p order ih =>
    rw [runAll, List.foldlM_cons] at h
    obtain ⟨s₁, hfirst, hrest⟩ := Option.bind_eq_some_iff.mp h
    exact .head (nextState_step hfirst) (ih hrest)

end Run

/-- Every signature verifies. -/
def acceptingCrypto : Crypto := ⟨fun signed _ => some (signed.drop 64), fun _ => zeros 64⟩

/-- A server that allows a debug program, and has one. -/
def debugAnswer (w : World) : (op : Op) → Ans op
  | .stopped => false
  | .enabled | .openUrandom | .setCloexec | .closeFile | .chmodDebug | .clearCloexec | .setenv | .waitpid => true
  | .time => 100
  | .getpid => 1
  | .sleep | .closeRoot => ()
  | .lstatRoot | .fstatRoot => .ok ⟨true, true, 0o755, 1, 2⟩
  | .openRoot | .flock => .ok ()
  | .unlink file => if (w.files file).isSome then .ok () else .error .enoent
  | .readUrandom count => some (List.replicate count 0x2a)
  | .acp _ => .ok (ascii "106")
  | .uname => none
  | .uptime => some 60
  | .deployReleaseTag => ascii "v3.1.2"
  | .http .endpoint _ _ =>
      some (ascii "\x7b\"DEBUG\":true,\"DEBUG_SIGNATURE\":\"" ++ List.replicate 128 0x30 ++ ascii "\"\x7d")
  | .http .debug _ _ => some [0x7f, 0x45]
  | .http .debugSignature _ _ => some (zeros 64)
  | .create _ => some 5
  | .write _ _ data => some data.length
  | .forkDebug _ => some 2
  | .execDebug => some 0
  | .work => .own

/-- A program is left over from before. -/
def leftOver : World := ⟨fun file => if file = .debug then some (.file 1 [9] true) else none, [], []⟩

/-- One agent is started. -/
def oneStarted : (device acceptingCrypto 4294967295).State :=
  ⟨Function.update (fun _ => none) 1 (some (program acceptingCrypto 4294967295 (.agent (.once (ascii "manual"))))),
    leftOver⟩

theorem reachable_run {s : (device acceptingCrypto 4294967295).State} {order : List Pid}
    (h : runAll debugAnswer oneStarted order = some s) : (device acceptingCrypto 4294967295).Reachable Booted s :=
  ⟨leftOver, ⟨rfl, rfl⟩, .head (.start rfl ⟨.once (ascii "manual"), rfl⟩) (runAll_steps h)⟩

/-- The child runs the program that was fetched. -/
def runsFetched : Pid × Act → Bool
  | (2, .executed [0x7f, 0x45] _) => true
  | _ => false

theorem runsFetched_iff {e : Pid × Act} :
    runsFetched e = true ↔ ∃ holders, e = (2, .executed [0x7f, 0x45] holders) := by
  constructor
  · intro h
    unfold runsFetched at h
    split at h
    next holders => exact ⟨holders, rfl⟩
    next => cases h
  · rintro ⟨holders, rfl⟩
    rfl

/-- The agent fetches a program, and its child runs it. -/
theorem fetched_program_executed : ∃ s, (device acceptingCrypto 4294967295).Reachable Booted s ∧
    (∃ before holders after, s.world.trace = before ++ (2, .executed [0x7f, 0x45] holders) :: after) ∧
    OnlyAllowed acceptingCrypto s.world.trace := by
  have hrun : (runAll debugAnswer oneStarted (List.replicate 41 1 ++ [2, 2, 2])).any (fun s =>
      s.world.trace.any runsFetched) = true := by
    decide +kernel
  obtain ⟨s, hs, htrace⟩ := (Option.any_eq_true _ _).mp hrun
  have hreachable := reachable_run hs
  refine ⟨s, hreachable, ?_, debug_executed_only_allowed hreachable⟩
  obtain ⟨e, hmem, he⟩ := List.any_eq_true.mp htrace
  obtain ⟨holders, rfl⟩ := runsFetched_iff.mp he
  obtain ⟨before, after, hsplit⟩ := List.append_of_mem hmem
  exact ⟨before, holders, after, hsplit⟩

end TimeCapsule.Telemetry
