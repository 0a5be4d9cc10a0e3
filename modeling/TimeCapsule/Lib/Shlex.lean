import Mathlib.Data.List.Basic

/-!
# shlex

`shlex.quote` and `shlex.split` of the standard library.  A quoted text is split into itself, and a split
text has no characters but its own and backslashes.
-/

namespace TimeCapsule.Lib

/-! ## quote -/

/-- A character that needs no quotes: a word character of ASCII, a hyphen or one of `@%+=:,./`. -/
def isShellSafe (c : Char) : Bool :=
  c.isAlphanum || c == '_' || c == '@' || c == '%' || c == '+' || c == '=' || c == ':' || c == ',' ||
    c == '.' || c == '/' || c == '-'

/-- `text.replace("'", "'\"'\"'")` -/
def escapeQuotes (t : List Char) : List Char :=
  t.flatMap fun c => if c = '\'' then ['\'', '"', '\'', '"', '\''] else [c]

/-- `shlex.quote` -/
def shlexQuote (t : List Char) : List Char :=
  if t = [] then ['\'', '\'']
  else if t.all isShellSafe then t
  else '\'' :: escapeQuotes t ++ ['\'']

/-! ## split -/

/-- What the lexer is in: a token or what is between tokens, a quotation, or behind a backslash with the
quotation it goes back to. -/
inductive LexState where
  | plain
  | quoted (q : Char)
  | escaped (back : Option Char)
deriving DecidableEq, Repr

def isLexSpace (c : Char) : Bool := c == ' ' || c == '\t' || c == '\r' || c == '\n'

/-- The tokens of a text; `token` is what there is of the first, if it is begun. -/
def lexFrom : LexState → Option (List Char) → List Char → Except String (List (List Char))
  | .plain, token, [] => .ok token.toList
  | .quoted _, _, [] => .error "No closing quotation"
  | .escaped _, _, [] => .error "No escaped character"
  | .plain, token, c :: t =>
      if isLexSpace c then (lexFrom .plain none t).map (token.toList ++ ·)
      else if c = '\\' then lexFrom (.escaped none) token t
      else if c = '\'' ∨ c = '"' then lexFrom (.quoted c) (some (token.getD [])) t
      else lexFrom .plain (some (token.getD [] ++ [c])) t
  | .quoted q, token, c :: t =>
      if c = q then lexFrom .plain token t
      else if c = '\\' ∧ q = '"' then lexFrom (.escaped (some q)) token t
      else lexFrom (.quoted q) (some (token.getD [] ++ [c])) t
  | .escaped none, token, c :: t => lexFrom .plain (some (token.getD [] ++ [c])) t
  | .escaped (some q), token, c :: t =>
      -- Within quotes only the quote and the backslash are escaped.
      if c = '\\' ∨ c = q then lexFrom (.quoted q) (some (token.getD [] ++ [c])) t
      else lexFrom (.quoted q) (some (token.getD [] ++ ['\\', c])) t

/-- `shlex.split` -/
def shlexSplit (t : List Char) : Except String (List (List Char)) := lexFrom .plain none t

/-! ## Splitting what is quoted -/

section Quoted

variable {c : Char} {u t v : List Char}

theorem shellSafe_plain (h : isShellSafe c = true) :
    isLexSpace c = false ∧ c ≠ '\\' ∧ ¬ (c = '\'' ∨ c = '"') := by
  refine ⟨?_, ?_, ?_⟩
  · rw [isLexSpace, Bool.eq_false_iff]
    intro hspace
    simp only [Bool.or_eq_true, beq_iff_eq] at hspace
    rcases hspace with ((rfl | rfl) | rfl) | rfl <;> exact absurd h (by decide)
  · rintro rfl
    exact absurd h (by decide)
  · rintro (rfl | rfl) <;> exact absurd h (by decide)

theorem lexFrom_safe (hsafe : ∀ c ∈ t, isShellSafe c = true) :
    lexFrom .plain (some u) t = .ok [u ++ t] := by
  induction t generalizing u with
  | nil => simp [lexFrom]
  | cons c t ih =>
    obtain ⟨hspace, hback, hquote⟩ := shellSafe_plain (hsafe c List.mem_cons_self)
    rw [lexFrom, hspace, if_neg Bool.false_ne_true, if_neg hback, if_neg hquote, Option.getD_some,
      ih fun d hd => hsafe d (List.mem_cons_of_mem c hd), List.append_assoc, List.singleton_append]

/-- In single quotes a text stands for itself, its own single quotes being put in double ones. -/
theorem lexFrom_escapeQuotes :
    lexFrom (.quoted '\'') (some u) (escapeQuotes t ++ ['\'']) = .ok [u ++ t] := by
  induction t generalizing u with
  | nil => simp [escapeQuotes, lexFrom]
  | cons c t ih =>
    rw [escapeQuotes, List.flatMap_cons, List.append_assoc]
    by_cases hc : c = '\''
    · subst hc
      have hrest : lexFrom (.quoted '\'') (some u) ('\'' :: '"' :: '\'' :: '"' :: '\'' ::
          (escapeQuotes t ++ ['\''])) = lexFrom (.quoted '\'') (some (u ++ ['\'']))
            (escapeQuotes t ++ ['\'']) := by
        simp [lexFrom, isLexSpace]
      rw [if_pos rfl]
      refine hrest.trans ?_
      rw [ih, List.append_assoc, List.singleton_append]
    · have hback : ¬ (c = '\\' ∧ '\'' = '"') := fun h => absurd h.2 (by decide)
      rw [if_neg hc, List.singleton_append, lexFrom, if_neg hc, if_neg hback, Option.getD_some]
      refine ih.trans ?_
      rw [List.append_assoc, List.singleton_append]

theorem shlexSplit_shlexQuote (t : List Char) : shlexSplit (shlexQuote t) = .ok [t] := by
  rw [shlexSplit, shlexQuote]
  split_ifs with hnil hsafe
  · subst hnil
    rfl
  · obtain ⟨c, t, rfl⟩ := List.exists_cons_of_ne_nil hnil
    have hall : ∀ d ∈ c :: t, isShellSafe d = true := List.all_eq_true.mp hsafe
    obtain ⟨hspace, hback, hquote⟩ := shellSafe_plain (hall c List.mem_cons_self)
    rw [lexFrom, hspace, if_neg Bool.false_ne_true, if_neg hback, if_neg hquote]
    exact lexFrom_safe fun d hd => hall d (List.mem_cons_of_mem c hd)
  · have hopen : lexFrom .plain none ('\'' :: (escapeQuotes t ++ ['\''])) =
        lexFrom (.quoted '\'') (some []) (escapeQuotes t ++ ['\'']) := by
      simp [lexFrom, isLexSpace]
    exact hopen.trans lexFrom_escapeQuotes

/-! ## The characters of quoted and split texts -/

theorem mem_shlexQuote (h : c ∈ shlexQuote t) : c ∈ t ∨ c = '\'' ∨ c = '"' := by
  rw [shlexQuote] at h
  split_ifs at h with hnil hsafe
  · simp only [List.mem_cons, List.not_mem_nil, or_false, or_self] at h
    exact Or.inr (Or.inl h)
  · exact Or.inl h
  · simp only [escapeQuotes, List.cons_append, List.mem_cons, List.mem_append, List.mem_flatMap,
      List.not_mem_nil, or_false] at h
    rcases h with h | ⟨d, hd, h⟩ | h
    · exact Or.inr (Or.inl h)
    · split_ifs at h with hq
      · simp only [List.mem_cons, List.not_mem_nil, or_false] at h
        tauto
      · exact Or.inl (List.mem_singleton.mp h ▸ hd)
    · exact Or.inr (Or.inl h)

/-- A quoted text starts and ends with a safe character or a quote. -/
theorem head?_shlexQuote (h : (shlexQuote t).head? = some c) : isShellSafe c = true ∨ c = '\'' := by
  rw [shlexQuote] at h
  split_ifs at h with hnil hsafe
  · exact Or.inr (Option.some.inj h).symm
  · exact Or.inl (List.all_eq_true.mp hsafe c (List.mem_of_mem_head? h))
  · exact Or.inr (Option.some.inj h).symm

theorem getLast?_shlexQuote (h : (shlexQuote t).getLast? = some c) : isShellSafe c = true ∨ c = '\'' := by
  rw [shlexQuote] at h
  split_ifs at h with hnil hsafe
  · exact Or.inr (Option.some.inj h).symm
  · exact Or.inl (List.all_eq_true.mp hsafe c (List.mem_of_getLast? h))
  · rw [List.cons_append, ← List.cons_append, List.getLast?_concat] at h
    exact Or.inr (Option.some.inj h).symm

theorem shlexQuote_ne_nil (t : List Char) : shlexQuote t ≠ [] := by
  rw [shlexQuote]
  split_ifs with hnil hsafe
  · exact List.cons_ne_nil _ _
  · exact hnil
  · exact List.cons_ne_nil _ _

variable {P : Char → Prop} {state : LexState} {token : Option (List Char)} {tokens : List (List Char)}

theorem forall_mem_snoc (hu : ∀ c ∈ u, P c) (hv : ∀ c ∈ v, P c) : ∀ c ∈ u ++ v, P c := by
  intro c hc
  exact (List.mem_append.mp hc).elim (hu c) (hv c)

theorem lexFrom_chars (hback : P '\\') (htoken : ∀ c ∈ token.getD [], P c) (ht : ∀ c ∈ t, P c)
    (h : lexFrom state token t = .ok tokens) : ∀ u ∈ tokens, ∀ c ∈ u, P c := by
  induction t generalizing state token tokens with
  | nil =>
    cases state with
    | plain =>
      obtain rfl := Except.ok.inj h
      cases token with
      | none => exact fun u hu => absurd hu List.not_mem_nil
      | some u =>
        intro v hv
        rw [Option.toList_some, List.mem_singleton] at hv
        exact hv ▸ htoken
    | quoted q => exact nomatch h
    | escaped back =>
      cases back <;> exact nomatch h
  | cons c t ih =>
    have hc : P c := ht c List.mem_cons_self
    have hrest : ∀ d ∈ t, P d := fun d hd => ht d (List.mem_cons_of_mem c hd)
    have hsnoc : ∀ d ∈ (some (token.getD [] ++ [c])).getD [], P d := by
      refine forall_mem_snoc htoken fun d hd => ?_
      rwa [List.mem_singleton.mp hd]
    cases state with
    | plain =>
      rw [lexFrom] at h
      split_ifs at h with hspace hslash hquote
      · cases hlex : lexFrom .plain none t with
        | error e =>
          rw [hlex] at h
          exact nomatch h
        | ok rest =>
          rw [hlex] at h
          obtain rfl := Except.ok.inj h
          intro u hu
          rcases List.mem_append.mp hu with hu | hu
          · obtain rfl := Option.mem_toList.mp hu
            exact htoken
          · have hnone : ∀ c ∈ (none : Option (List Char)).getD [], P c := fun d hd =>
              absurd hd List.not_mem_nil
            exact ih hnone hrest hlex u hu
      · exact ih htoken hrest h
      · have hopen : ∀ c ∈ (some (token.getD [])).getD [], P c := htoken
        exact ih hopen hrest h
      · exact ih hsnoc hrest h
    | quoted q =>
      rw [lexFrom] at h
      split_ifs at h with hquote hslash
      · exact ih htoken hrest h
      · exact ih htoken hrest h
      · exact ih hsnoc hrest h
    | escaped back =>
      cases back with
      | none =>
        rw [lexFrom] at h
        exact ih hsnoc hrest h
      | some q =>
        rw [lexFrom] at h
        split_ifs at h with hquote
        · exact ih hsnoc hrest h
        · have hboth : ∀ d ∈ (some (token.getD [] ++ ['\\', c])).getD [], P d := by
            refine forall_mem_snoc htoken fun d hd => ?_
            rcases List.mem_cons.mp hd with rfl | hd
            · exact hback
            · rwa [List.mem_singleton.mp hd]
          exact ih hboth hrest h

end Quoted

end TimeCapsule.Lib
