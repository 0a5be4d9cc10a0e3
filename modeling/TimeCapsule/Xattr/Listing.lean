import TimeCapsule.Xattr.ListBuffer

/-!
# Listings of native attributes

The buffers hold the lists that the functions are for: each name of the kernel once, and the names for
the file server with their streams.  The sizes of the two passes agree.
-/

namespace TimeCapsule.Xattr

open Lib Migrate

/-- The names with their zeros. -/
def encodeNames (names : List Name) : Bytes := names.flatMap (· ++ [0])

/-- Names as they can be stored. -/
def ZeroFree (names : List Name) : Prop := ∀ name ∈ names, (0 : UInt8) ∉ name

@[simp] theorem encodeNames_nil : encodeNames [] = [] := rfl

@[simp] theorem encodeNames_cons (name : Name) (names : List Name) :
    encodeNames (name :: names) = name ++ [0] ++ encodeNames names := rfl

@[simp] theorem encodeNames_append (names names' : List Name) :
    encodeNames (names ++ names') = encodeNames names ++ encodeNames names' := List.flatMap_append

section Entries

variable {name : Name} {names : List Name} {rest raw : Bytes} {n fuel offset : Nat}

theorem takeWhile_entry (hname : (0 : UInt8) ∉ name) :
    (name ++ [0] ++ rest).takeWhile (· ≠ 0) = name := by
  rw [List.append_assoc, List.takeWhile_append_of_pos]
  · simp
  · intro b hb
    simpa using fun h : b = 0 => hname (h ▸ hb)

theorem strnlen_entry (hname : (0 : UInt8) ∉ name) (hn : name.length < n) :
    strnlen (name ++ [0] ++ rest) n = name.length := by
  rw [strnlen, List.take_append, List.take_of_length_le (by simp; omega), takeWhile_entry hname]

/-- The first entry behind an offset. -/
theorem entry_of_drop (hraw : raw.drop offset = encodeNames (name :: names)) :
    offset < raw.length ∧ name.length + 1 ≤ raw.length - offset ∧
      slice raw offset (offset + (name.length + 1)) = name ++ [0] ∧
      raw.drop (offset + (name.length + 1)) = encodeNames names := by
  have hlen := congrArg List.length hraw
  rw [encodeNames_cons, List.length_append, List.length_append, List.length_singleton,
    List.length_drop] at hlen
  have hentry : (name ++ [0] : Bytes).length = name.length + 1 := by simp
  refine ⟨by omega, by omega, ?_, ?_⟩
  · rw [slice_add, hraw, encodeNames_cons, List.take_left' hentry]
  · rw [← List.drop_drop, hraw, encodeNames_cons, List.drop_left' hentry]

theorem strnlen_of_drop (hname : (0 : UInt8) ∉ name)
    (hraw : raw.drop offset = encodeNames (name :: names)) :
    strnlen (raw.drop offset) (raw.length - offset) = name.length := by
  have hlen := (entry_of_drop hraw).2.1
  rw [hraw, encodeNames_cons]
  exact strnlen_entry hname (by omega)

theorem entryAt_of_drop (hname : (0 : UInt8) ∉ name)
    (hraw : raw.drop offset = encodeNames (name :: names)) : entryAt raw offset = name := by
  rw [entryAt, hraw, encodeNames_cons, takeWhile_entry hname]

/-- Entries of lists are equal when their names are. -/
theorem listContainsFrom_iff (hnames : ZeroFree names) {list : Bytes}
    (hlist : list.drop offset = encodeNames names) (hfuel : list.length ≤ offset + fuel) :
    listContainsFrom list (name ++ [0]) fuel offset = true ↔ name ∈ names := by
  induction names generalizing fuel offset with
  | nil =>
    have hlen := congrArg List.length hlist
    rw [encodeNames_nil, List.length_nil, List.length_drop] at hlen
    cases fuel with
    | zero => simp [listContainsFrom]
    | succ fuel => simp [listContainsFrom, show ¬ offset < list.length by omega]
  | cons first names ih =>
    obtain ⟨hlt, hle, hslice, hdrop⟩ := entry_of_drop hlist
    obtain ⟨hfirst, hnames⟩ := List.forall_mem_cons.mp hnames
    cases fuel with
    | zero => omega
    | succ fuel =>
      have hstrnlen := strnlen_of_drop hfirst hlist
      simp only [listContainsFrom, if_pos hlt, hstrnlen, hslice]
      rw [if_neg (by omega)]
      by_cases h : first = name
      · simp [h]
      · have hne : first ++ [0] ≠ name ++ [0] := fun heq => h (List.append_cancel_right heq)
        rw [if_neg hne, ih hnames hdrop (by omega)]
        simp [Ne.symm h]

theorem tcAirportXattrListContains_iff (hnames : ZeroFree names) :
    tcAirportXattrListContains (encodeNames names) (name ++ [0]) = true ↔ name ∈ names :=
  listContainsFrom_iff hnames rfl (by omega)

end Entries

/-! ## Writing one piece behind the other -/

section Pieces

variable {list piece piece' : Bytes} {i j k : Nat}

theorem take_setSlice_end (hij : i ≤ j) (hj : j ≤ list.length) (hp : piece.length = j - i) :
    (setSlice list i j piece).take j = list.take i ++ piece := by
  rw [setSlice, List.take_left']
  rw [List.length_append, List.length_take, hp]
  omega

/-- A piece written from an offset on. -/
def putAt (list : Bytes) (i : Nat) (piece : Bytes) : Bytes := setSlice list i (i + piece.length) piece

theorem putAt_nil (i : Nat) : putAt list i [] = list := by
  rw [putAt, setSlice, List.append_nil]
  exact List.take_append_drop i list

theorem length_putAt (h : i + piece.length ≤ list.length) : (putAt list i piece).length = list.length :=
  length_setSlice (Nat.le_add_right i _) h (Nat.add_sub_cancel_left i _).symm

theorem putAt_putAt (h : i + piece.length ≤ list.length) :
    putAt (putAt list i piece) (i + piece.length) piece' = putAt list i (piece ++ piece') := by
  have hp : piece.length = i + piece.length - i := (Nat.add_sub_cancel_left i _).symm
  rw [putAt, setSlice, putAt, take_setSlice_end (Nat.le_add_right i _) h hp,
    drop_setSlice (Nat.le_add_right i _) h hp (Nat.le_add_right _ _), putAt, setSlice,
    List.length_append, List.append_assoc (list.take i), Nat.add_assoc]

end Pieces

/-! ## The kernel's list -/

/-- Behind the offsets are the names kept of those done, and the names to come. -/
theorem compactFrom_spec {todo : List Name} (htodo : ZeroFree todo) :
    ∀ {fuel inOffset outSize : Nat} {raw : Bytes} {done : List Name}, ZeroFree done →
      raw.take outSize = encodeNames done.eraseDups → raw.drop inOffset = encodeNames todo →
      outSize ≤ inOffset → inOffset ≤ raw.length → raw.length ≤ inOffset + fuel →
      ∃ raw', compactFrom fuel raw inOffset outSize =
          .ok (raw', (encodeNames (done ++ todo).eraseDups).length) ∧
        raw'.take (encodeNames (done ++ todo).eraseDups).length =
          encodeNames (done ++ todo).eraseDups := by
  induction todo with
  | nil =>
    intro fuel inOffset outSize raw done hdone htake hdrop hle hin hfuel
    have hlen := congrArg List.length hdrop
    rw [encodeNames_nil, List.length_nil, List.length_drop] at hlen
    have hout : (encodeNames done.eraseDups).length = outSize := by
      rw [← htake, List.length_take]
      omega
    rw [List.append_nil, hout]
    refine ⟨raw, ?_, htake⟩
    cases fuel with
    | zero => rfl
    | succ fuel => simp [compactFrom, show ¬ inOffset < raw.length by omega]
  | cons name todo ih =>
    intro fuel inOffset outSize raw done hdone htake hdrop hle hin hfuel
    obtain ⟨hlt, hsize, hslice, hrest⟩ := entry_of_drop hdrop
    obtain ⟨hname, htodo⟩ := List.forall_mem_cons.mp htodo
    have hdone' : ZeroFree (done ++ [name]) := by
      intro n hn
      rcases List.mem_append.mp hn with h | h
      · exact hdone n h
      · exact (List.mem_singleton.mp h) ▸ hname
    have hkept : ZeroFree done.eraseDups := fun n hn => hdone n (List.mem_eraseDups.mp hn)
    cases fuel with
    | zero => omega
    | succ fuel =>
      simp only [compactFrom, if_pos hlt, strnlen_of_drop hname hdrop, hslice, htake]
      rw [if_neg (by omega), List.append_cons done name todo]
      by_cases hmem : name ∈ done
      · rw [if_pos ((tcAirportXattrListContains_iff hkept).mpr (List.mem_eraseDups.mpr hmem))]
        exact ih htodo hdone' (by rw [htake, eraseDups_snoc_of_mem hmem]) hrest (by omega) (by omega)
          (by omega)
      · rw [if_neg fun h => hmem (List.mem_eraseDups.mp
          ((tcAirportXattrListContains_iff hkept).mp h))]
        have hentry : (name ++ [0] : Bytes).length = outSize + (name.length + 1) - outSize := by simp
        have hlen := length_setSlice (Nat.le_add_right outSize (name.length + 1))
          (show outSize + (name.length + 1) ≤ raw.length by omega) hentry
        refine ih htodo hdone' ?_ ?_ (by omega) (by omega) (by omega)
        · rw [take_setSlice_end (by omega) (by omega) hentry, htake, eraseDups_snoc_of_notMem hmem,
            encodeNames_append, encodeNames_cons, encodeNames_nil, List.append_nil]
        · rw [drop_setSlice (by omega) (by omega) hentry (by omega)]
          exact hrest

/-- What a listing of the text gives: its size without a buffer, and the text where there is room. -/
def listResult (text : Bytes) (list : Option Bytes) : ListResult :=
  giveList list text.length fun buffer => (text ++ buffer.drop text.length, text.length)

theorem listResult_nil (list : Option Bytes) : listResult [] list = ⟨.ok 0, list⟩ := by
  cases list with
  | none => rfl
  | some buffer =>
    rw [listResult, giveList]
    split <;> simp

/-- The kernel's answers when the file has these attributes. -/
def callsOf (names : List Name) : NativeCalls :=
  { size := .ok (encodeNames names).length
    read := fun size =>
      if size < (encodeNames names).length then .error .erange else .ok (encodeNames names)
    malloc := true }

theorem giveList_congr {list : Option Bytes} {required : Nat} {fill fill' : Bytes → Bytes × Nat}
    (h : ∀ buffer, required ≤ buffer.length → fill buffer = fill' buffer) :
    giveList list required fill = giveList list required fill' := by
  cases list with
  | none => rfl
  | some buffer =>
    rw [giveList, giveList]
    split
    · rfl
    · split
      · rfl
      · rw [h buffer (by omega)]

theorem eq_nil_of_encodeNames {names : List Name} (h : (encodeNames names).length = 0) : names = [] := by
  cases names with
  | nil => rfl
  | cons name names => simp at h

theorem tcAirportFlistxattr_eq {names : List Name} (hnames : ZeroFree names) (list : Option Bytes) :
    tcAirportFlistxattr (callsOf names) list = listResult (encodeNames names.eraseDups) list := by
  by_cases hempty : (encodeNames names).length = 0
  · obtain rfl := eq_nil_of_encodeNames hempty
    exact (listResult_nil list).symm
  · obtain ⟨raw, hcompact, htake⟩ := @compactFrom_spec names hnames (encodeNames names).length 0 0
      (encodeNames names) [] (by simp [ZeroFree]) rfl rfl le_rfl (Nat.zero_le _) (by omega)
    rw [List.nil_append] at hcompact htake
    simp only [tcAirportFlistxattr, callsOf, if_neg hempty, if_neg (Nat.lt_irrefl _), hcompact, htake]
    refine giveList_congr fun buffer _ => ?_
    rw [setSlice, List.take_zero, List.nil_append]

/-! ## The list for the file server -/

/-- The names under which the file server sees an attribute. -/
def withStream (entry : Name) : List Name :=
  if tcFruitOwnedNativeXattr entry then []
  else if comApple.isPrefixOf entry then [entry, streamNameOf entry]
  else [entry]

theorem requiredFrom_spec {names : List Name} (hnames : ZeroFree names) {raw : Bytes} :
    ∀ {fuel offset required : Nat}, raw.drop offset = encodeNames names →
      raw.length ≤ offset + fuel → requiredFrom raw fuel offset required =
        required + (encodeNames (names.flatMap withStream)).length := by
  induction names with
  | nil =>
    intro fuel offset required hraw hfuel
    have hlen := congrArg List.length hraw
    rw [encodeNames_nil, List.length_nil, List.length_drop] at hlen
    cases fuel with
    | zero => rfl
    | succ fuel => simp [requiredFrom, show ¬ offset < raw.length by omega]
  | cons entry names ih =>
    intro fuel offset required hraw hfuel
    obtain ⟨hlt, hsize, -, hrest⟩ := entry_of_drop hraw
    obtain ⟨hentry, hnames⟩ := List.forall_mem_cons.mp hnames
    cases fuel with
    | zero => omega
    | succ fuel =>
      have hnext := fun required : Nat =>
        @ih hnames fuel (offset + (entry.length + 1)) required hrest (by omega)
      simp only [requiredFrom, if_pos hlt, entryAt_of_drop hentry hraw, hnext, List.flatMap_cons,
        encodeNames_append, List.length_append, withStream]
      split
      · simp
      · split
        · simp [streamNameOf]
          omega
        · simp
          omega

theorem snprintfAt_eq {list text : Bytes} {offset : Nat}
    (hroom : offset + (text ++ [0]).length ≤ list.length) :
    snprintfAt list offset text = putAt list offset (text ++ [0]) := by
  rw [List.length_append, List.length_singleton] at hroom
  have hcount : min text.length (list.length - offset - 1) = text.length := by omega
  simp only [snprintfAt, hcount, List.take_length, putAt, List.length_append, List.length_singleton,
    Nat.add_assoc]

/-- The second pass writes what the first one counted. -/
theorem writeFrom_spec {names : List Name} (hnames : ZeroFree names) {raw : Bytes} :
    ∀ {fuel offset written : Nat} {list : Bytes}, raw.drop offset = encodeNames names →
      raw.length ≤ offset + fuel →
      written + (encodeNames (names.flatMap withStream)).length ≤ list.length →
      writeFrom raw fuel offset list written =
        (putAt list written (encodeNames (names.flatMap withStream)),
          written + (encodeNames (names.flatMap withStream)).length) := by
  induction names with
  | nil =>
    intro fuel offset written list hraw hfuel hroom
    have hlen := congrArg List.length hraw
    rw [encodeNames_nil, List.length_nil, List.length_drop] at hlen
    rw [List.flatMap_nil, encodeNames_nil, List.length_nil, Nat.add_zero, putAt_nil]
    cases fuel with
    | zero => rfl
    | succ fuel => simp [writeFrom, show ¬ offset < raw.length by omega]
  | cons entry names ih =>
    intro fuel offset written list hraw hfuel hroom
    obtain ⟨hlt, hsize, hslice, hrest⟩ := entry_of_drop hraw
    obtain ⟨hentry, hnames⟩ := List.forall_mem_cons.mp hnames
    cases fuel with
    | zero => omega
    | succ fuel =>
      have hentryLength : entry.length + 1 = (entry ++ [0] : Bytes).length := by simp
      rw [hentryLength] at hrest hsize hslice
      have hnext := fun (list : Bytes) (written : Nat) =>
        @ih hnames fuel (offset + (entry ++ [0] : Bytes).length) written list hrest (by omega)
      rw [List.flatMap_cons, encodeNames_append, List.length_append, ← Nat.add_assoc] at hroom
      rw [List.flatMap_cons, encodeNames_append, List.length_append, ← Nat.add_assoc,
        ← putAt_putAt (by omega)]
      simp only [writeFrom, if_pos hlt, entryAt_of_drop hentry hraw, hslice, hentryLength]
      -- In each case the pieces of this entry are `encodeNames (withStream entry)`.
      by_cases howned : tcFruitOwnedNativeXattr entry = true
      · have hpieces : encodeNames (withStream entry) = [] := by rw [withStream, if_pos howned]; rfl
        rw [hpieces, List.length_nil, Nat.add_zero] at hroom ⊢
        rw [if_pos howned, putAt_nil]
        exact hnext list written hroom
      · rw [if_neg howned, show setSlice list written (written + (entry ++ [0] : Bytes).length)
          (entry ++ [0]) = putAt list written (entry ++ [0]) from rfl]
        by_cases happle : comApple.isPrefixOf entry = true
        · have hpieces : encodeNames (withStream entry) =
              (entry ++ [0]) ++ (streamNameOf entry ++ [0]) := by
            rw [withStream, if_neg howned, if_pos happle]
            simp
          have hlength : written + (entry ++ [0] : Bytes).length + (streamNameOf entry).length + 1 =
              written + ((entry ++ [0]) ++ (streamNameOf entry ++ [0]) : Bytes).length := by
            simp
            omega
          rw [hpieces, ← hlength] at hroom
          rw [hpieces, if_pos happle, snprintfAt_eq (by rw [length_putAt] <;> simp at * <;> omega),
            putAt_putAt (by omega), hlength]
          exact hnext _ _ (by rw [length_putAt] <;> omega)
        · have hpieces : encodeNames (withStream entry) = entry ++ [0] := by
            rw [withStream, if_neg howned, if_neg happle]
            simp
          rw [hpieces] at hroom ⊢
          rw [if_neg happle]
          exact hnext _ _ (by rw [length_putAt (by omega)]; exact hroom)

theorem ZeroFree.eraseDups {names : List Name} (h : ZeroFree names) : ZeroFree names.eraseDups :=
  fun name hname => h name (List.mem_eraseDups.mp hname)

theorem tcNativeListWithAppleStreams_eq {names : List Name} (hnames : ZeroFree names)
    (list : Option Bytes) :
    tcNativeListWithAppleStreams (callsOf names) (callsOf names) true list =
      listResult (encodeNames (names.eraseDups.flatMap withStream)) list := by
  have hfirst : (tcAirportFlistxattr (callsOf names) none).ret =
      .ok (encodeNames names.eraseDups).length := by
    rw [tcAirportFlistxattr_eq hnames]
    rfl
  rw [tcNativeListWithAppleStreams, hfirst]
  by_cases hempty : (encodeNames names.eraseDups).length = 0
  · rw [eq_nil_of_encodeNames hempty]
    exact (listResult_nil list).symm
  · have hsecond : tcAirportFlistxattr (callsOf names)
          (some (zeros (encodeNames names.eraseDups).length)) =
        ⟨.ok (encodeNames names.eraseDups).length, some (encodeNames names.eraseDups)⟩ := by
      rw [tcAirportFlistxattr_eq hnames, listResult, giveList, length_zeros, if_neg hempty,
        if_neg (Nat.lt_irrefl _), List.drop_of_length_le (by rw [length_zeros]), List.append_nil]
    simp only [if_neg hempty, hsecond, Option.getD_some, List.take_length]
    rw [requiredFrom_spec hnames.eraseDups rfl (by omega), Nat.zero_add]
    refine giveList_congr fun buffer hroom => ?_
    rw [writeFrom_spec hnames.eraseDups rfl (by omega) (by omega), Nat.zero_add, putAt, setSlice,
      List.take_zero, List.nil_append, Nat.zero_add]

/-! ## Both lists -/

/-- The function gives the text: its size where there is no buffer, all of it where there is room, and
otherwise an error with the buffer as it was. -/
structure Gives (f : Option Bytes → ListResult) (text : Bytes) : Prop where
  null : f none = ⟨.ok text.length, none⟩
  empty : f (some []) = ⟨.ok text.length, some []⟩
  room : ∀ buffer : Bytes, buffer ≠ [] → text.length ≤ buffer.length →
    f (some buffer) = ⟨.ok text.length, some (text ++ buffer.drop text.length)⟩
  small : ∀ buffer : Bytes, buffer ≠ [] → buffer.length < text.length →
    f (some buffer) = ⟨.error .erange, some buffer⟩

theorem gives_listResult (text : Bytes) : Gives (listResult text) text where
  null := rfl
  empty := rfl
  room := by
    intro buffer hne hroom
    rw [listResult, giveList, if_neg (by simpa using hne), if_neg (by omega)]
  small := by
    intro buffer hne hsmall
    rw [listResult, giveList, if_neg (by simpa using hne), if_pos hsmall]

/-- Whatever the system answers, a listing that fails writes nothing. -/
theorem list_of_giveList {list : Option Bytes} {required : Nat} {fill : Bytes → Bytes × Nat}
    {errno : Errno} (h : (giveList list required fill).ret = .error errno) :
    (giveList list required fill).list = list := by
  cases list with
  | none => exact nomatch h
  | some buffer =>
    rw [giveList] at h ⊢
    split
    · rfl
    · rename_i hempty
      rw [if_neg hempty] at h
      split
      · rfl
      · rename_i hroom
        rw [if_neg hroom] at h
        exact nomatch h

theorem tcAirportFlistxattr_error {calls : NativeCalls} {list : Option Bytes} {errno : Errno}
    (h : (tcAirportFlistxattr calls list).ret = .error errno) :
    (tcAirportFlistxattr calls list).list = list := by
  unfold tcAirportFlistxattr at h ⊢
  cases hsize : calls.size with
  | error errno => rfl
  | ok rawSize =>
    by_cases hzero : rawSize = 0
    · simp only [hzero, if_true]
    · cases hmalloc : calls.malloc with
      | false => simp [hzero]
      | true =>
        cases hread : calls.read rawSize with
        | error errno => simp [hzero, hread]
        | ok raw =>
          cases hcompact : compactFrom raw.length raw 0 0 with
          | error errno => simp [hzero, hread, hcompact]
          | ok compacted =>
            simp only [hsize, if_neg hzero, hmalloc, Bool.not_true, hread, hcompact] at h ⊢
            exact list_of_giveList h

theorem tcNativeListWithAppleStreams_error {first second : NativeCalls} {talloc : Bool}
    {list : Option Bytes} {errno : Errno}
    (h : (tcNativeListWithAppleStreams first second talloc list).ret = .error errno) :
    (tcNativeListWithAppleStreams first second talloc list).list = list := by
  unfold tcNativeListWithAppleStreams at h ⊢
  cases hsize : (tcAirportFlistxattr first none).ret with
  | error errno => rfl
  | ok rawSize =>
    by_cases hzero : rawSize = 0
    · simp only [hzero, if_true]
    · cases talloc with
      | false => simp [hzero]
      | true =>
        cases hread : (tcAirportFlistxattr second (some (zeros rawSize))).ret with
        | error errno => simp [hzero, hread]
        | ok ret =>
          simp only [hsize, if_neg hzero, Bool.not_true, hread] at h ⊢
          exact list_of_giveList h

/-- Each name of the kernel's list is given once, where it came first, and for the file server without
those of its own and with the streams of Apple's. -/
theorem native_listings (names : List Name) (hnames : ZeroFree names) :
    Gives (tcAirportFlistxattr (callsOf names)) (encodeNames names.eraseDups) ∧
      Gives (tcNativeListWithAppleStreams (callsOf names) (callsOf names) true)
        (encodeNames (names.eraseDups.flatMap withStream)) ∧
      (∀ calls list errno, (tcAirportFlistxattr calls list).ret = .error errno →
        (tcAirportFlistxattr calls list).list = list) ∧
      ∀ first second talloc list errno,
        (tcNativeListWithAppleStreams first second talloc list).ret = .error errno →
        (tcNativeListWithAppleStreams first second talloc list).list = list := by
  have hfirst : tcAirportFlistxattr (callsOf names) = listResult (encodeNames names.eraseDups) :=
    funext (tcAirportFlistxattr_eq hnames)
  have hsecond : tcNativeListWithAppleStreams (callsOf names) (callsOf names) true =
      listResult (encodeNames (names.eraseDups.flatMap withStream)) :=
    funext (tcNativeListWithAppleStreams_eq hnames)
  rw [hfirst, hsecond]
  exact ⟨gives_listResult _, gives_listResult _, fun _ _ _ => tcAirportFlistxattr_error,
    fun _ _ _ _ _ => tcNativeListWithAppleStreams_error⟩

theorem native_listings_twice :
    [comApple, finderinfoXattr, comApple].eraseDups = [comApple, finderinfoXattr] ∧
      Gives (tcAirportFlistxattr (callsOf [comApple, finderinfoXattr, comApple]))
        (encodeNames [comApple, finderinfoXattr, comApple].eraseDups) :=
  ⟨by decide +kernel, (native_listings [comApple, finderinfoXattr, comApple]
    (by unfold ZeroFree; decide +kernel)).1⟩

/-- The lists of names that the migration reasons with. -/
theorem foldl_appendOnce (names : List Name) : Migrate.tcAirportFlistxattr names = names.eraseDups := by
  rw [Migrate.tcAirportFlistxattr]
  induction names using List.reverseRecOn with
  | nil => rfl
  | append_singleton names name ih =>
    rw [List.foldl_append, ih, List.foldl_cons, List.foldl_nil, appendOnce]
    by_cases h : name ∈ names
    · rw [eraseDups_snoc_of_mem h, if_pos (by simpa using h)]
    · rw [eraseDups_snoc_of_notMem h, if_neg (by simpa using h)]

theorem tcNativeListWithAppleStreams_names (names : List Name) :
    Migrate.tcNativeListWithAppleStreams names = names.eraseDups.flatMap withStream := by
  rw [Migrate.tcNativeListWithAppleStreams, foldl_appendOnce]
  rfl

end TimeCapsule.Xattr
