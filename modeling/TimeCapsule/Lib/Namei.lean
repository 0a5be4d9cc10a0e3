import Mathlib.Data.List.Basic
import Mathlib.Tactic.SplitIfs

/-!
# Path walks

What a kernel makes of a path: the names between its slashes, looked up one after the other from a directory
to start from, where a symbolic link puts its own text in front of the names that are left.
-/

namespace TimeCapsule.Lib

abbrev PathText := List Char

/-- The names between the slashes. -/
def components (path : PathText) : List PathText := (path.splitOn '/').filter fun name => !name.isEmpty

/-- A file system as a walk sees it; the entries of a directory include `.` and `..`. -/
structure FileTree (ν : Type) where
  root : ν
  isDir : ν → Bool
  searchable : ν → Bool
  entry : ν → PathText → Option ν
  link : ν → Option PathText

structure WalkLimits where
  pathMax : Nat
  nameMax : Nat
  maxLinks : Nat

inductive WalkError where
  | noEntry
  | notDir
  | access
  | nameTooLong
  | loop
deriving DecidableEq, Repr

/-- Where a walk ends: the last name, the directory that it is looked up in, and what it names. -/
structure Found (ν : Type) where
  dir : ν
  name : PathText
  node : Option ν
  /-- The path ends in a slash. -/
  slash : Bool

/-- A walk up to its end or to the first link that it has to follow. -/
inductive Descent (ν : Type) where
  | found (found : Found ν)
  | failed (error : WalkError)
  | jump (dir : ν) (text : PathText) (rest : List PathText)

variable {ν : Type}

namespace FileTree

variable (tree : FileTree ν) (limits : WalkLimits)

def descend (follow slash : Bool) : ν → List PathText → Descent ν
  | dir, [] => .found ⟨dir, [], some dir, slash⟩
  | dir, name :: rest =>
      if !tree.isDir dir then .failed .notDir
      else if !tree.searchable dir then .failed .access
      else if limits.nameMax < name.length then .failed .nameTooLong
      else
        match tree.entry dir name with
        | none => if rest.isEmpty then .found ⟨dir, name, none, slash⟩ else .failed .noEntry
        | some node =>
            match tree.link node with
            | some text =>
                if rest.isEmpty && !slash && !follow then .found ⟨dir, name, some node, slash⟩
                else .jump dir text rest
            | none =>
                if !rest.isEmpty then descend follow slash node rest
                else if slash && !tree.isDir node then .failed .notDir
                else .found ⟨dir, name, some node, slash⟩

/-- Where a path starts. -/
def startOf (start : ν) (path : PathText) : ν := if path.head? = some '/' then tree.root else start

/-- A walk that follows at most `links` links. -/
def walk (follow : Bool) : (links : Nat) → (slash : Bool) → ν → List PathText → Except WalkError (Found ν)
  | 0, slash, dir, names =>
      match tree.descend limits follow slash dir names with
      | .found found => .ok found
      | .failed error => .error error
      | .jump _ _ _ => .error .loop
  | links + 1, slash, dir, names =>
      match tree.descend limits follow slash dir names with
      | .found found => .ok found
      | .failed error => .error error
      | .jump dir text rest =>
          if text.isEmpty then .error .noEntry
          else walk follow links (slash || (rest.isEmpty && decide (text.getLast? = some '/')))
            (tree.startOf dir text) (components text ++ rest)

/-- The lookup of a path; `follow` is whether a link at its end is followed. -/
def namei (follow : Bool) (start : ν) (path : PathText) : Except WalkError (Found ν) :=
  if path.isEmpty then .error .noEntry
  else if limits.pathMax ≤ path.length then .error .nameTooLong
  else tree.walk limits follow limits.maxLinks (decide (path.getLast? = some '/')) (tree.startOf start path)
    (components path)

/-- The names lead from one directory to another, with no link on the way. -/
def Leads : ν → List PathText → ν → Prop
  | dir, [], last => dir = last
  | dir, name :: rest, last => tree.isDir dir = true ∧ name.length ≤ limits.nameMax ∧
      ∃ node, tree.entry dir name = some node ∧ tree.link node = none ∧ Leads node rest last

/-- Every directory in which one of the names is looked up can be searched. -/
def SearchableAlong : ν → List PathText → Prop
  | _, [] => True
  | dir, name :: rest => tree.searchable dir = true ∧
      ∀ node, tree.entry dir name = some node → SearchableAlong node rest

end FileTree

variable {tree : FileTree ν} {limits : WalkLimits} {dir last start : ν} {names rest : List PathText}
  {follow slash : Bool}

/-! ## Two paths put together -/

theorem components_append_slash (front back : PathText) :
    components (front ++ '/' :: back) = components front ++ components back := by
  rw [components, List.splitOn_append_cons_self, List.filter_append]
  rfl

theorem components_ne_nil {path : PathText} (hne : path ≠ []) (hhead : path.head? ≠ some '/') :
    components path ≠ [] := by
  cases path with
  | nil => exact absurd rfl hne
  | cons c path =>
    have hc : c ≠ '/' := fun h => hhead (by rw [h]; rfl)
    obtain ⟨front, rest, hrest⟩ := List.exists_cons_of_ne_nil (List.splitOn_ne_nil '/' path)
    rw [components, List.splitOn_cons_eq_if_modifyHead, if_neg (by simpa using hc), hrest]
    simp

/-- Names that lead to a directory are gone through before the others. -/
theorem descend_append (hleads : tree.Leads limits dir names last)
    (hsearch : tree.SearchableAlong dir names) (hrest : rest ≠ []) :
    tree.descend limits follow slash dir (names ++ rest) = tree.descend limits follow slash last rest := by
  induction names generalizing dir with
  | nil => rw [show dir = last from hleads, List.nil_append]
  | cons name names ih =>
    obtain ⟨hdir, hlength, node, hentry, hlink, hleads⟩ := hleads
    have hne : (names ++ rest).isEmpty = false := by
      simp [hrest]
    rw [List.cons_append, FileTree.descend, hdir, hsearch.1, if_neg (by simp), if_neg (by simp),
      if_neg (by omega), hentry]
    simp only [hlink, hne, Bool.not_false, if_true]
    exact ih hleads (hsearch.2 node hentry)

theorem walk_append (hleads : tree.Leads limits dir names last)
    (hsearch : tree.SearchableAlong dir names) (hrest : rest ≠ []) (links : Nat) :
    tree.walk limits follow links slash dir (names ++ rest) =
      tree.walk limits follow links slash last rest := by
  cases links <;> simp only [FileTree.walk, descend_append hleads hsearch hrest]

/-- A path behind the path of a directory is looked up as from the directory. -/
theorem namei_append_slash {front path : PathText} (hfront : front = [] ∨ front.head? = some '/')
    (hleads : tree.Leads limits tree.root (components front) last)
    (hsearch : tree.SearchableAlong tree.root (components front)) (hne : path ≠ [])
    (hhead : path.head? ≠ some '/') (hlength : (front ++ '/' :: path).length < limits.pathMax) :
    tree.namei limits follow start (front ++ '/' :: path) = tree.namei limits follow last path := by
  have hstart : tree.startOf start (front ++ '/' :: path) = tree.root := by
    rw [FileTree.startOf, if_pos]
    rcases hfront with rfl | hfront
    · rfl
    · rw [List.head?_append, hfront]
      rfl
  have hlast : (front ++ '/' :: path).getLast? = path.getLast? := by
    rw [List.getLast?_append_of_ne_nil _ (List.cons_ne_nil _ _), List.getLast?_cons_of_ne_nil hne]
  have hshort : path.length < limits.pathMax := by
    rw [List.length_append, List.length_cons] at hlength
    omega
  rw [FileTree.namei, FileTree.namei, if_neg (by simp), if_neg (Nat.not_le.mpr hlength), if_neg (by simpa using hne),
    if_neg (Nat.not_le.mpr hshort), hstart, hlast, components_append_slash,
    walk_append hleads hsearch (components_ne_nil hne hhead), FileTree.startOf, if_neg hhead]

/-! ## A link at the end -/

/-- What a walk finds is no link that it did not follow. -/
def Found.Plain (tree : FileTree ν) (found : Found ν) : Prop := ∀ node, found.node = some node → tree.link node = none

theorem descend_follow
    (h : ∀ found, tree.descend limits false slash dir names = .found found → found.Plain tree) :
    tree.descend limits true slash dir names = tree.descend limits false slash dir names := by
  induction names generalizing dir with
  | nil => rfl
  | cons name names ih =>
    rw [FileTree.descend] at h
    rw [FileTree.descend, FileTree.descend]
    by_cases hdir : (!tree.isDir dir) = true
    · rw [if_pos hdir, if_pos hdir]
    by_cases hsearch : (!tree.searchable dir) = true
    · rw [if_neg hdir, if_neg hdir, if_pos hsearch, if_pos hsearch]
    by_cases hlength : limits.nameMax < name.length
    · rw [if_neg hdir, if_neg hdir, if_neg hsearch, if_neg hsearch, if_pos hlength, if_pos hlength]
    rw [if_neg hdir, if_neg hsearch, if_neg hlength] at h ⊢
    rw [if_neg hdir, if_neg hsearch, if_neg hlength]
    cases hentry : tree.entry dir name with
    | none => rfl
    | some node =>
      simp only [hentry] at h
      cases hlink : tree.link node with
      | none =>
        simp only [hlink] at h ⊢
        by_cases hrest : (!names.isEmpty) = true
        · rw [if_pos hrest] at h ⊢
          rw [if_pos hrest]
          exact ih h
        · rw [if_neg hrest, if_neg hrest]
      | some text =>
        simp only [hlink, Bool.not_true, Bool.and_false, Bool.false_eq_true, if_false, Bool.not_false,
          Bool.and_true] at h ⊢
        by_cases hend : (names.isEmpty && !slash) = true
        · rw [if_pos hend] at h
          have := h _ rfl node rfl
          rw [hlink] at this
          exact nomatch this
        · rw [if_neg hend]

theorem walk_follow {links : Nat}
    (h : ∀ found, tree.walk limits false links slash dir names = .ok found → found.Plain tree) :
    tree.walk limits true links slash dir names = tree.walk limits false links slash dir names := by
  induction links generalizing slash dir names with
  | zero =>
    have hdescend : tree.descend limits true slash dir names = tree.descend limits false slash dir names :=
      descend_follow fun found hfound => h found (by rw [FileTree.walk, hfound])
    rw [FileTree.walk, FileTree.walk, hdescend]
  | succ links ih =>
    have hdescend : tree.descend limits true slash dir names = tree.descend limits false slash dir names :=
      descend_follow fun found hfound => h found (by rw [FileTree.walk, hfound])
    rw [FileTree.walk] at h
    rw [FileTree.walk, FileTree.walk, hdescend]
    cases hfound : tree.descend limits false slash dir names with
    | found _ => rfl
    | failed _ => rfl
    | jump dir text rest =>
      simp only [hfound] at h ⊢
      split_ifs at h ⊢ with hempty
      · rfl
      · exact ih h

/-- Following makes no difference where the path does not end in a link. -/
theorem namei_follow {path : PathText}
    (h : ∀ found, tree.namei limits false start path = .ok found → found.Plain tree) :
    tree.namei limits true start path = tree.namei limits false start path := by
  rw [FileTree.namei] at h
  rw [FileTree.namei, FileTree.namei]
  split_ifs at h ⊢ with hempty hlength
  · rfl
  · rfl
  · exact walk_follow h

end TimeCapsule.Lib
