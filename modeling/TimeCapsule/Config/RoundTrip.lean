import TimeCapsule.Config.EnvFile

/-!
# Reading the configuration back

What a line can give, and that the written lines give what was written.
-/

namespace TimeCapsule.Config

open Lib Net

/-- A text in which no line ends. -/
def OneLine (t : Text) : Prop := ∀ c ∈ t, isLineBoundary c = false

/-- A key that can stand before the `=` of a line. -/
structure ReadableKey (key : Text) : Prop where
  trimmed : stripText key = key
  noEquals : '=' ∉ key
  noComment : key.head? ≠ some '#'
  oneLine : OneLine key

/-- All settings that are kept have keys and values for one line. -/
def Readable (values : EnvValues) : Prop :=
  ∀ key value, values.lookup key = some value → envFileOmitKeys.contains key = false →
    ReadableKey key ∧ OneLine value

/-- Parsing what is rendered gives what was written, and nothing else. -/
def Returned (values : EnvValues) : Prop :=
  ∀ key, (parseEnvFile (some (renderEnvText values))).lookup key = written values key

variable {c : Char} {t key value raw : Text} {values : EnvValues}

/-! ## What a line can give -/

theorem OneLine.of_subset (h : OneLine t) (hsub : ∀ c ∈ key, c ∈ t) : OneLine key :=
  fun c hc => h c (hsub c hc)

theorem parseEnvValue_oneLine (h : OneLine raw) : OneLine (parseEnvValue raw) := by
  have hvalue : OneLine (stripText raw) := h.of_subset fun _ => mem_of_mem_stripText
  rw [parseEnvValue]
  split_ifs
  · exact fun c hc => absurd hc List.not_mem_nil
  · split
    next token htokens =>
      have hchars := lexFrom_chars (P := fun c => isLineBoundary c = false) (by decide)
        (fun c hc => absurd hc List.not_mem_nil) hvalue htokens
      exact hchars token List.mem_cons_self
    · exact hvalue
    · exact hvalue.of_subset fun _ hc => mem_of_mem_dropWhile (mem_of_mem_rdropWhile hc)

theorem parseEnvKey_readable (hraw : OneLine raw) (hcomment : (stripText raw).head? ≠ some '#') :
    ReadableKey (stripText ((stripText raw).takeWhile (· != '='))) where
  trimmed := stripText_stripText _
  noEquals := by
    intro hmem
    have := List.mem_takeWhile_imp (mem_of_mem_stripText hmem)
    exact absurd this (by decide)
  noComment := by
    intro hhead
    have hline : ∀ c, ((stripText raw).takeWhile (· != '=')).head? = some c →
        (stripText raw).head? = some c := by
      intro c hc
      rw [List.head?_takeWhile, Option.filter_eq_some_iff] at hc
      exact hc.1
    rw [stripText_of_head fun c hc => head?_stripText (hline c hc)] at hhead
    exact hcomment (hline _ (head?_rdropWhile hhead))
  oneLine := hraw.of_subset fun c hc =>
    mem_of_mem_stripText ((List.takeWhile_prefix _).subset (mem_of_mem_stripText hc))

/-- All settings are readable. -/
def AllReadable (values : EnvValues) : Prop :=
  ∀ key value, values.lookup key = some value → ReadableKey key ∧ OneLine value

theorem parseEnvLine_readable (h : AllReadable values) (hraw : OneLine raw) :
    AllReadable (parseEnvLine values raw) := by
  rw [parseEnvLine]
  split_ifs with hskip
  · exact h
  · rw [not_or, not_or] at hskip
    intro key value hlookup
    by_cases hkey : key = stripText ((stripText raw).takeWhile (· != '='))
    · subst hkey
      rw [AList.lookup_insert] at hlookup
      obtain rfl := Option.some.inj hlookup
      refine ⟨parseEnvKey_readable hraw hskip.2.1, parseEnvValue_oneLine (hraw.of_subset fun c hc => ?_)⟩
      exact mem_of_mem_stripText (mem_of_mem_dropWhile (List.mem_of_mem_drop hc))
    · rw [AList.lookup_insert_ne hkey] at hlookup
      exact h key value hlookup

theorem parseEnvFile_readable (text : Text) : AllReadable (parseEnvFile (some text)) := by
  have hrun : ∀ (lines : List Text) (values : EnvValues), AllReadable values →
      (∀ line ∈ lines, OneLine line) → AllReadable (lines.foldl parseEnvLine values) := by
    intro lines
    induction lines with
    | nil => exact fun _ h _ => h
    | cons line lines ih =>
      intro values h hlines
      exact ih _ (parseEnvLine_readable h (hlines line List.mem_cons_self))
        fun line' h' => hlines line' (List.mem_cons_of_mem line h')
  refine hrun _ ∅ (fun key value h => ?_) fun line => splitlines_chars
  rw [AList.lookup_empty] at h
  exact nomatch h

/-! ## The written lines -/

theorem shellSafe_range (h : isShellSafe c = true) : 33 ≤ c.toNat ∧ c.toNat ≤ 122 := by
  have hval : c.toNat = c.val.toNat := rfl
  have hends : 'A'.val.toNat = 65 ∧ 'Z'.val.toNat = 90 ∧ 'a'.val.toNat = 97 ∧ 'z'.val.toNat = 122 ∧
      '0'.val.toNat = 48 ∧ '9'.val.toNat = 57 := by
    decide
  have halphanum : c.isAlphanum = true → 48 ≤ c.toNat ∧ c.toNat ≤ 122 := by
    intro h
    have h' : (decide (c.val ≥ 'A'.val ∧ c.val ≤ 'Z'.val) ||
        (decide (c.val ≥ 'a'.val) && decide (c.val ≤ 'z'.val)) ||
        (decide (c.val ≥ '0'.val) && decide (c.val ≤ '9'.val))) = true := h
    simp only [Bool.or_eq_true, Bool.and_eq_true, decide_eq_true_eq, ge_iff_le, UInt32.le_iff_toNat_le] at h'
    omega
  simp only [isShellSafe, Bool.or_eq_true, beq_iff_eq] at h
  rcases h with (((((((((h | rfl) | rfl) | rfl) | rfl) | rfl) | rfl) | rfl) | rfl) | rfl) | rfl
  · have := halphanum h
    omega
  all_goals decide

theorem space_of_quoteEnd (h : isShellSafe c = true ∨ c = '\'') : isPySpace c = false := by
  rcases h with h | rfl
  · have := shellSafe_range h
    simp only [isPySpace, Bool.or_eq_false_iff, Bool.and_eq_false_iff, decide_eq_false_iff_not,
      beq_eq_false_iff_ne]
    omega
  · decide

theorem rdropWhile_quote (u v : Text) :
    (u ++ shlexQuote v).rdropWhile isPySpace = u ++ shlexQuote v := by
  rw [List.rdropWhile_eq_self_iff]
  intro hne
  have hlast : (shlexQuote v).getLast? = some ((u ++ shlexQuote v).getLast hne) := by
    rw [List.getLast_append_of_right_ne_nil _ _ (shlexQuote_ne_nil v)]
    exact List.getLast?_eq_some_getLast _
  simp [space_of_quoteEnd (getLast?_shlexQuote hlast)]

theorem parseEnvValue_shellQuote (value : Text) : parseEnvValue (shellQuote value) = value := by
  have hstrip : stripText (shellQuote value) = shlexQuote value := by
    rw [shellQuote, stripText_of_head fun c hc => space_of_quoteEnd (head?_shlexQuote hc)]
    exact rdropWhile_quote [] value
  rw [parseEnvValue, hstrip, if_neg (shlexQuote_ne_nil value), shlexSplit_shlexQuote]

/-- The line of a readable key sets it to the value. -/
theorem parseEnvLine_assignment (hkey : ReadableKey key) (values : EnvValues) (value : Text) :
    parseEnvLine values (assignment key value) = values.insert key value := by
  have hhead : ∀ c, (assignment key value).head? = some c → isPySpace c = false ∧ c ≠ '#' := by
    intro c hc
    cases hk : key with
    | nil =>
      rw [assignment, hk, List.nil_append] at hc
      obtain rfl := Option.some.inj hc
      decide
    | cons d key' =>
      rw [assignment, hk, List.cons_append] at hc
      obtain rfl := Option.some.inj hc
      have hd : key.head? = some d := by rw [hk]; rfl
      refine ⟨head?_stripText (hkey.trimmed.symm ▸ hd), ?_⟩
      rintro rfl
      exact hkey.noComment hd
  have hstrip : stripText (assignment key value) = assignment key value := by
    rw [stripText_of_head fun c hc => (hhead c hc).1, assignment, shellQuote, List.append_cons]
    exact rdropWhile_quote (key ++ ['=']) value
  have hne : ∀ c ∈ key, (c != '=') = true := by
    intro c hc
    rw [bne_iff_ne]
    rintro rfl
    exact hkey.noEquals hc
  have hsplit : (assignment key value).takeWhile (· != '=') = key ∧
      (assignment key value).dropWhile (· != '=') = '=' :: shellQuote value := by
    rw [assignment, List.takeWhile_append_of_pos hne, List.dropWhile_append_of_pos hne]
    simp
  rw [parseEnvLine, hstrip, if_neg]
  · simp only [hsplit.1, hsplit.2, hkey.trimmed, List.drop_one, List.tail_cons, parseEnvValue_shellQuote]
  · rintro (h | h | h)
    · exact absurd h (by simp [assignment])
    · exact (hhead _ h).2 rfl
    · exact absurd h (by simp [assignment])

theorem oneLine_assignment (hkey : OneLine key) (hvalue : OneLine value) :
    OneLine (assignment key value) := by
  intro c hc
  rcases List.mem_append.mp hc with h | h
  · exact hkey c h
  · rcases List.mem_cons.mp h with rfl | h
    · decide
    · rcases mem_shlexQuote h with h | rfl | rfl
      · exact hvalue c h
      · decide
      · decide

/-! ## All lines -/

def insertAll (pairs : List (Text × Text)) (values : EnvValues) : EnvValues :=
  pairs.foldl (fun values pair => values.insert pair.1 pair.2) values

theorem foldl_parseEnvLine {pairs : List (Text × Text)} (h : ∀ pair ∈ pairs, ReadableKey pair.1)
    (values : EnvValues) :
    (pairs.map fun pair => assignment pair.1 pair.2).foldl parseEnvLine values =
      insertAll pairs values := by
  induction pairs generalizing values with
  | nil => rfl
  | cons pair pairs ih =>
    rw [List.map_cons, List.foldl_cons, parseEnvLine_assignment (h pair List.mem_cons_self),
      ih fun pair' h' => h pair' (List.mem_cons_of_mem pair h')]
    rfl

section InsertAll

variable {pairs : List (Text × Text)} {f : Text → Option Text}

theorem lookup_insertAll_of_notMem (h : key ∉ pairs.map Prod.fst) (values : EnvValues) :
    (insertAll pairs values).lookup key = values.lookup key := by
  induction pairs generalizing values with
  | nil => rfl
  | cons pair pairs ih =>
    rw [List.map_cons, List.mem_cons, not_or] at h
    refine (ih h.2 _).trans ?_
    rw [AList.lookup_insert_ne h.1]

/-- Pairs that agree on the value of each key. -/
theorem lookup_insertAll_of_mem (hpairs : ∀ pair ∈ pairs, f pair.1 = some pair.2)
    (h : key ∈ pairs.map Prod.fst) (values : EnvValues) :
    (insertAll pairs values).lookup key = f key := by
  induction pairs using List.reverseRecOn with
  | nil => exact absurd h List.not_mem_nil
  | append_singleton pairs pair ih =>
    rw [insertAll, List.foldl_append, List.foldl_cons, List.foldl_nil]
    by_cases hkey : key = pair.1
    · rw [hkey, AList.lookup_insert, hpairs pair (List.mem_append_right _ List.mem_cons_self)]
    · rw [AList.lookup_insert_ne hkey]
      refine ih (fun pair' h' => hpairs pair' (List.mem_append_left _ h')) ?_
      rw [List.map_append, List.mem_append] at h
      refine h.resolve_right fun hlast => hkey ?_
      simpa using hlast

end InsertAll

/-! ## What is written -/

def writtenPairs (values : EnvValues) : List (Text × Text) :=
  (envFileKeys.map fun key => (key, renderedValue values key)) ++
    (extraKeys values).map fun key => (key, (values.lookup key).getD [])

theorem mem_extraKeys : key ∈ extraKeys values ↔
    envFileKeys.contains key = false ∧ envFileOmitKeys.contains key = false ∧ key ∈ values := by
  rw [extraKeys, List.mem_insertionSort, List.mem_filter, ← AList.mem_keys, Bool.and_eq_true,
    Bool.not_eq_true', Bool.not_eq_true']
  exact ⟨fun ⟨hkey, hknown, homit⟩ => ⟨hknown, homit, hkey⟩,
    fun ⟨hknown, homit, hkey⟩ => ⟨hkey, hknown, homit⟩⟩

theorem getD_lookup_of_mem (h : key ∈ values) :
    values.lookup key = some ((values.lookup key).getD []) := by
  obtain ⟨value, hvalue⟩ := Option.isSome_iff_exists.mp (AList.lookup_isSome.mpr h)
  rw [hvalue]
  rfl

theorem written_of_mem : ∀ pair ∈ writtenPairs values, written values pair.1 = some pair.2 := by
  intro pair hpair
  rcases List.mem_append.mp hpair with h | h
  · obtain ⟨key, hkey, rfl⟩ := List.mem_map.mp h
    rw [written, if_pos (by simpa using hkey)]
  · obtain ⟨key, hkey, rfl⟩ := List.mem_map.mp h
    obtain ⟨hknown, homit, hmem⟩ := mem_extraKeys.mp hkey
    rw [written, hknown, homit, if_neg Bool.false_ne_true, if_neg Bool.false_ne_true]
    exact getD_lookup_of_mem hmem

theorem written_of_notMem (h : key ∉ (writtenPairs values).map Prod.fst) :
    written values key = none := by
  have hkeys : (writtenPairs values).map Prod.fst = envFileKeys ++ extraKeys values := by
    simp [writtenPairs, Function.comp_def]
  rw [hkeys, List.mem_append, not_or, mem_extraKeys] at h
  have hknown : envFileKeys.contains key = false := by simpa using h.1
  rw [written, hknown, if_neg Bool.false_ne_true]
  split_ifs with homit
  · rfl
  · rw [AList.lookup_eq_none]
    exact fun hmem => h.2 ⟨hknown, by simpa using homit, hmem⟩

/-- A key of letters, digits and other characters that need no quotes. -/
theorem readableKey_of_safe (h : ∀ c ∈ key, isShellSafe c = true ∧ c ≠ '=') : ReadableKey key := by
  have hrange : ∀ c ∈ key, isPySpace c = false ∧ isLineBoundary c = false := by
    intro c hc
    have := shellSafe_range (h c hc).1
    simp only [isPySpace, isLineBoundary, Bool.or_eq_false_iff, Bool.and_eq_false_iff,
      decide_eq_false_iff_not, beq_eq_false_iff_ne]
    omega
  have hhead : ∀ c, key.head? = some c → isPySpace c = false := fun c hc =>
    (hrange c (List.mem_of_mem_head? hc)).1
  refine ⟨?_, fun hmem => (h _ hmem).2 rfl, fun hcomment => ?_, fun c hc => (hrange c hc).2⟩
  · rw [stripText_of_head hhead, List.rdropWhile_eq_self_iff]
    intro hne
    simp [(hrange _ (List.getLast_mem hne)).1]
  · exact absurd (h _ (List.mem_of_mem_head? hcomment)).1 (by decide)

theorem knownKeys_readable (h : key ∈ envFileKeys) :
    ReadableKey key ∧ envFileOmitKeys.contains key = false ∧
      OneLine ((defaults.lookup key).getD []) := by
  have hsafe : (envFileKeys.all fun key => key.all fun c => isShellSafe c && c != '=') = true := by
    decide +kernel
  have homit : (envFileKeys.all fun key => !envFileOmitKeys.contains key) = true := by
    decide +kernel
  have hdefaults : (defaults.all fun pair => pair.2.all fun c => !isLineBoundary c) = true := by
    decide +kernel
  refine ⟨readableKey_of_safe ?_, by simpa using List.all_eq_true.mp homit key h, ?_⟩
  · simpa using List.all_eq_true.mp hsafe key h
  · cases hvalue : defaults.lookup key with
    | none => exact fun c hc => absurd hc List.not_mem_nil
    | some value =>
      have hmem : (key, value) ∈ defaults := by
        obtain ⟨l₁, l₂, hl, -⟩ := List.lookup_eq_some_iff.mp hvalue
        rw [hl]
        exact List.mem_append_right _ List.mem_cons_self
      simpa [OneLine] using List.all_eq_true.mp hdefaults _ hmem

/-- With readable settings all written pairs are readable. -/
theorem Readable.pairs (h : Readable values) :
    ∀ pair ∈ writtenPairs values, ReadableKey pair.1 ∧ OneLine pair.2 := by
  intro pair hpair
  rcases List.mem_append.mp hpair with hp | hp
  · obtain ⟨key, hkey, rfl⟩ := List.mem_map.mp hp
    obtain ⟨hread, homit, hdefault⟩ := knownKeys_readable hkey
    refine ⟨hread, ?_⟩
    rw [renderedValue]
    cases hvalue : values.lookup key with
    | none => exact hdefault
    | some value => exact (h key value hvalue homit).2
  · obtain ⟨key, hkey, rfl⟩ := List.mem_map.mp hp
    obtain ⟨-, homit, hmem⟩ := mem_extraKeys.mp hkey
    exact h key _ (getD_lookup_of_mem hmem) homit

/-! ## The text -/

/-- The two lines of the header. -/
def headerLines : List Text :=
  ["# Local user/device configuration for TimeCapsuleSMB.".toList,
    "# Generated by tcapsule configure".toList]

/-- The lines of the text without the last, which is empty. -/
def renderedLines (values : EnvValues) : List Text :=
  headerLines ++ [[]] ++ (envFileKeys.map fun key => assignment key (renderedValue values key)) ++
    if extraKeys values = [] then []
    else [[], "# Preserved custom settings".toList] ++
      (extraKeys values).map fun key => assignment key ((values.lookup key).getD [])

example : (renderedLines ∅).length = 19 := by decide +kernel

theorem intercalate_newline (u v l : Text) (lines : List Text) :
    List.intercalate ['\n'] ((u ++ '\n' :: v) :: l :: lines) =
      List.intercalate ['\n'] (u :: v :: l :: lines) := by
  simp [List.intercalate_cons_cons]

theorem renderEnvText_eq (values : EnvValues) :
    renderEnvText values = List.intercalate ['\n'] (renderedLines values ++ [[]]) := by
  have hheader : configHeader.rdropWhile isPySpace =
      "# Local user/device configuration for TimeCapsuleSMB.".toList ++
        '\n' :: "# Generated by tcapsule configure".toList := by
    decide +kernel
  rw [renderEnvText, hheader, renderedLines, headerLines]
  simp only [List.cons_append, List.nil_append]
  rw [intercalate_newline]

theorem parseEnvLine_skip (h : stripText raw = [] ∨ (stripText raw).head? = some '#')
    (values : EnvValues) : parseEnvLine values raw = values := by
  rw [parseEnvLine]
  exact if_pos (h.elim Or.inl fun h => Or.inr (Or.inl h))

theorem parseEnvLine_nil (values : EnvValues) : parseEnvLine values [] = values :=
  parseEnvLine_skip (Or.inl rfl) values

theorem foldl_renderedLines (h : Readable values) :
    (renderedLines values).foldl parseEnvLine ∅ = insertAll (writtenPairs values) ∅ := by
  have hread := h.pairs
  have hassign : ∀ (keys : List Text) (value : Text → Text) (start : EnvValues),
      (∀ key ∈ keys, ReadableKey key) →
      (keys.map fun key => assignment key (value key)).foldl parseEnvLine start =
        insertAll (keys.map fun key => (key, value key)) start := by
    intro keys value start hkeys
    rw [← foldl_parseEnvLine, List.map_map]
    · rfl
    · intro pair hpair
      obtain ⟨key, hkey, rfl⟩ := List.mem_map.mp hpair
      exact hkeys key hkey
  have hknown : ∀ key ∈ envFileKeys, ReadableKey key := fun key hkey => (knownKeys_readable hkey).1
  have hextra : ∀ key ∈ extraKeys values, ReadableKey key := by
    intro key hkey
    exact (hread _ (List.mem_append_right _ (List.mem_map_of_mem hkey))).1
  have hfront : (headerLines ++ [[]]).foldl parseEnvLine ∅ = (∅ : EnvValues) := by
    rw [headerLines]
    simp only [List.cons_append, List.nil_append, List.foldl_cons, List.foldl_nil]
    have hfirst : (stripText "# Local user/device configuration for TimeCapsuleSMB.".toList).head? =
        some '#' := by
      decide +kernel
    have hsecond : (stripText "# Generated by tcapsule configure".toList).head? = some '#' := by
      decide +kernel
    rw [parseEnvLine_skip (Or.inr hfirst), parseEnvLine_skip (Or.inr hsecond),
      parseEnvLine_nil]
  rw [renderedLines, List.append_assoc, List.foldl_append, hfront, List.foldl_append,
    hassign _ _ _ hknown, writtenPairs, insertAll, insertAll, List.foldl_append]
  split_ifs with hnone
  · rw [hnone]
    rfl
  · rw [List.foldl_append, hassign _ _ _ hextra]
    simp only [List.foldl_cons, List.foldl_nil]
    have hcomment : (stripText "# Preserved custom settings".toList).head? = some '#' := by
      decide +kernel
    rw [parseEnvLine_nil, parseEnvLine_skip (Or.inr hcomment)]
    rfl

theorem oneLine_renderedLines (h : Readable values) : ∀ line ∈ renderedLines values, OneLine line := by
  have hread := h.pairs
  have hfixed : ∀ line ∈ headerLines ++ [[]] ++ [[], "# Preserved custom settings".toList],
      OneLine line := by
    have hall : (headerLines ++ [[]] ++ [[], "# Preserved custom settings".toList]).all (fun line =>
        line.all fun c => !isLineBoundary c) = true := by
      decide +kernel
    intro line hline
    simpa [OneLine] using List.all_eq_true.mp hall line hline
  have hpair : ∀ pair ∈ writtenPairs values, OneLine (assignment pair.1 pair.2) := fun pair hpair =>
    oneLine_assignment (hread pair hpair).1.oneLine (hread pair hpair).2
  intro line hline
  rcases List.mem_append.mp hline with hline | hline
  · rcases List.mem_append.mp hline with hline | hline
    · exact hfixed line (List.mem_append_left _ hline)
    · obtain ⟨key, hkey, rfl⟩ := List.mem_map.mp hline
      exact hpair (key, _) (List.mem_append_left _ (List.mem_map_of_mem hkey))
  · split_ifs at hline with hnone
    · exact absurd hline List.not_mem_nil
    · rcases List.mem_append.mp hline with hline | hline
      · exact hfixed line (List.mem_append_right _ hline)
      · obtain ⟨key, hkey, rfl⟩ := List.mem_map.mp hline
        exact hpair (key, _) (List.mem_append_right _ (List.mem_map_of_mem hkey))

theorem Readable.returned (h : Readable values) : Returned values := by
  intro key
  have hparse : parseEnvFile (some (renderEnvText values)) = insertAll (writtenPairs values) ∅ := by
    rw [renderEnvText_eq, parseEnvFile, splitlines_join (oneLine_renderedLines h), foldl_renderedLines h]
  rw [hparse]
  by_cases hkey : key ∈ (writtenPairs values).map Prod.fst
  · exact lookup_insertAll_of_mem written_of_mem hkey ∅
  · rw [lookup_insertAll_of_notMem hkey, AList.lookup_empty, written_of_notMem hkey]

/-- What is parsed is what was written exactly if every setting that is kept has a key and a value for one
line. -/
theorem returned_iff (values : EnvValues) : Returned values ↔ Readable values := by
  refine ⟨fun h key value hvalue homit => ?_, Readable.returned⟩
  have hwritten : written values key = some value := by
    rw [written, homit, if_neg Bool.false_ne_true]
    split_ifs with hknown
    · rw [renderedValue, hvalue, Option.getD_some]
    · exact hvalue
  exact parseEnvFile_readable _ key value ((h key).trans hwritten)

/-- A password with a newline in it sets the host. -/
theorem parseEnvFile_password : ∃ values : EnvValues,
    values.lookup "TC_HOST".toList = some "root@10.0.0.2".toList ∧
      values.lookup "TC_PASSWORD".toList = some "a\nTC_HOST=root@10.9.9.9".toList ∧
      (parseEnvFile (some (renderEnvText values))).lookup "TC_HOST".toList =
        some "root@10.9.9.9".toList ∧
      ¬ Returned values := by
  let values : EnvValues := ((∅ : EnvValues).insert "TC_HOST".toList "root@10.0.0.2".toList).insert
    "TC_PASSWORD".toList "a\nTC_HOST=root@10.9.9.9".toList
  have hhost : (parseEnvFile (some (renderEnvText values))).lookup "TC_HOST".toList =
      some "root@10.9.9.9".toList := by
    decide +kernel
  refine ⟨values, by decide +kernel, by decide +kernel, hhost, fun h => ?_⟩
  have hwritten := h "TC_HOST".toList
  rw [hhost] at hwritten
  exact absurd hwritten (by decide +kernel)

end TimeCapsule.Config
