import AgentSchedBench.Library.FileSystem
import AgentSchedBench.Library.StableSort
import Mathlib.Data.Char
import Mathlib.Data.List.Lex

/-!
# Listings of directories

The names of a directory are read in some order.  All that is below it is
found by reading the directories below it as well, and is the same for all
orders.  Sorting by the names of a path, or by its text, leaves the same list
as long as no name goes on, behind a shorter one, with a character that comes
before the slash.
-/

namespace FileSystem

open StableSort

variable {φ : Type}

/-- The orders in which the names of directories are read, in a tree that is
not deeper than a number of names. -/
structure Listing (fs : Fs φ) where
  names : Path → List String
  depth : Nat
  nodup : ∀ dir, (names dir).Nodup
  mem_names :
    ∀ dir name, name ∈ names dir ↔ (fs.get (dir ++ [name])).isSome = true
  length_le : ∀ path, (fs.get path).isSome → path.length ≤ depth

namespace Listing

variable {fs : Fs φ} (listing : Listing fs)

/-- What is below a directory, by its path from there. -/
def below : Nat → Path → List Path
  | 0, _ => []
  | levels + 1, dir =>
      (listing.names dir).flatMap fun name =>
        [name] ::
          if isDirectory (fs.get (dir ++ [name])) then
            (below levels (dir ++ [name])).map (name :: ·)
          else []

/-- All that is below a directory. -/
def walk (dir : Path) : List Path := listing.below listing.depth dir

/-- The entries of a directory. -/
def entries (dir : Path) : List Path :=
  (listing.names dir).map fun name => [name]

/-- The entries of a directory, or all that is below it. -/
def found (recursive : Bool) (dir : Path) : List Path :=
  if recursive then listing.walk dir else listing.entries dir

end Listing

section Below

variable {fs : Fs φ} {listing : Listing fs}

theorem mem_below_cons {levels : Nat} {dir rest : Path} {name : String} :
    name :: rest ∈ listing.below (levels + 1) dir ↔
      (fs.get (dir ++ [name])).isSome ∧
        (rest = [] ∨ isDirectory (fs.get (dir ++ [name])) = true ∧
          rest ∈ listing.below levels (dir ++ [name])) := by
  rw [Listing.below, List.mem_flatMap]
  constructor
  · rintro ⟨other, isThere, member⟩
    rcases List.mem_cons.mp member with same | deeper
    · cases same
      exact ⟨(listing.mem_names dir name).mp isThere, Or.inl rfl⟩
    · split at deeper
      · next isDir =>
          obtain ⟨path, isBelow, same⟩ := List.mem_map.mp deeper
          cases same
          exact ⟨(listing.mem_names dir name).mp isThere,
            Or.inr ⟨isDir, isBelow⟩⟩
      · cases deeper
  · rintro ⟨isThere, found⟩
    refine ⟨name, (listing.mem_names dir name).mpr isThere, ?_⟩
    rcases found with rfl | ⟨isDir, isBelow⟩
    · exact List.mem_cons_self
    · rw [if_pos isDir]
      exact List.mem_cons_of_mem _ (List.mem_map_of_mem isBelow)

theorem nil_notMem_below (levels : Nat) (dir : Path) :
    [] ∉ listing.below levels dir := by
  cases levels with
  | zero => exact List.not_mem_nil
  | succ levels =>
      rw [Listing.below, List.mem_flatMap]
      rintro ⟨name, -, member⟩
      rcases List.mem_cons.mp member with same | deeper
      · cases same
      · split at deeper
        · obtain ⟨path, -, same⟩ := List.mem_map.mp deeper
          cases same
        · cases deeper

/-- What is found below a directory is what is there. -/
theorem mem_below {levels : Nat} {dir path : Path}
    (deep : ∀ path, (fs.get (dir ++ path)).isSome → path.length ≤ levels) :
    path ∈ listing.below levels dir ↔
      path ≠ [] ∧ (fs.get (dir ++ path)).isSome := by
  induction levels generalizing dir path with
  | zero =>
      refine ⟨fun member => absurd member List.not_mem_nil, ?_⟩
      rintro ⟨nonempty, isThere⟩
      exact absurd (List.length_eq_zero_iff.mp
        (Nat.le_zero.mp (deep path isThere))) nonempty
  | succ levels induction =>
      cases path with
      | nil =>
          exact ⟨fun member => absurd member (nil_notMem_below _ _),
            fun both => absurd rfl both.1⟩
      | cons name rest =>
          have onward (path : Path) :
              dir ++ name :: path = (dir ++ [name]) ++ path := by
            rw [List.append_assoc]
            rfl
          have deeper (path : Path)
              (isThere : (fs.get ((dir ++ [name]) ++ path)).isSome) :
              path.length ≤ levels := by
            rw [← onward] at isThere
            exact Nat.le_of_succ_le_succ (deep (name :: path) isThere)
          rw [mem_below_cons, induction deeper, isDirectory_iff, onward rest]
          constructor
          · rintro ⟨isThere, rfl | ⟨-, -, found⟩⟩
            · exact ⟨List.cons_ne_nil _ _, by rwa [List.append_nil]⟩
            · exact ⟨List.cons_ne_nil _ _, found⟩
          · rintro ⟨-, isThere⟩
            by_cases noRest : rest = []
            · rw [noRest, List.append_nil] at isThere
              exact ⟨isThere, Or.inl noRest⟩
            · have isDir := fs.dir_of_ancestor noRest isThere
              exact ⟨Option.isSome_of_mem isDir,
                Or.inr ⟨isDir, noRest, isThere⟩⟩

theorem below_nodup (levels : Nat) (dir : Path) :
    (listing.below levels dir).Nodup := by
  induction levels generalizing dir with
  | zero => exact List.nodup_nil
  | succ levels induction =>
      rw [Listing.below, List.nodup_flatMap]
      constructor
      · intro name _
        rw [List.nodup_cons]
        split
        · refine ⟨fun member => ?_, (induction _).map fun _ _ same =>
            (List.cons.inj same).2⟩
          obtain ⟨path, isBelow, same⟩ := List.mem_map.mp member
          cases same
          exact nil_notMem_below _ _ isBelow
        · exact ⟨List.not_mem_nil, List.nodup_nil⟩
      · refine (listing.nodup dir).imp fun {name other} differ path inName
          inOther => differ ?_
        have head {name : String} {path : Path}
            (member : path ∈ [name] ::
              if isDirectory (fs.get (dir ++ [name])) then
                (listing.below levels (dir ++ [name])).map (name :: ·)
              else []) : path.head? = some name := by
          rcases List.mem_cons.mp member with rfl | deeper
          · rfl
          · split at deeper
            · obtain ⟨path, -, rfl⟩ := List.mem_map.mp deeper
              rfl
            · cases deeper
        exact Option.some.inj ((head inName).symm.trans (head inOther))

/-- What is in a directory, or also what is below it, by its path from
there. -/
def IsEntry (fs : Fs φ) (dir : Path) (recursive : Bool) (entry : Path) : Prop :=
  entry ≠ [] ∧ (fs.get (dir ++ entry)).isSome ∧
    (recursive = true ∨ entry.length = 1)

theorem mem_walk {dir entry : Path} :
    entry ∈ listing.walk dir ↔ IsEntry fs dir true entry := by
  have deep (path : Path) (isThere : (fs.get (dir ++ path)).isSome) :
      path.length ≤ listing.depth := by
    have whole := listing.length_le _ isThere
    rw [List.length_append] at whole
    omega
  rw [Listing.walk, mem_below deep, IsEntry, eq_self_iff_true, true_or,
    and_true]

theorem mem_entries {dir entry : Path} :
    entry ∈ listing.entries dir ↔ IsEntry fs dir false entry := by
  rw [Listing.entries, List.mem_map, IsEntry]
  constructor
  · rintro ⟨name, member, rfl⟩
    exact ⟨List.cons_ne_nil _ _, (listing.mem_names dir name).mp member,
      Or.inr rfl⟩
  · rintro ⟨-, isThere, one⟩
    obtain ⟨name, rfl⟩ :=
      List.length_eq_one_iff.mp (one.resolve_left Bool.false_ne_true)
    exact ⟨name, (listing.mem_names dir name).mpr isThere, rfl⟩

theorem mem_found {recursive : Bool} {dir entry : Path} :
    entry ∈ listing.found recursive dir ↔ IsEntry fs dir recursive entry := by
  cases recursive with
  | true => exact mem_walk
  | false => exact mem_entries

theorem found_nodup (recursive : Bool) (dir : Path) :
    (listing.found recursive dir).Nodup := by
  cases recursive with
  | true => exact below_nodup listing.depth dir
  | false =>
      exact (listing.nodup dir).map fun _ _ same => (List.cons.inj same).1

/-- All orders list the same. -/
theorem found_perm (listing other : Listing fs) (recursive : Bool) (dir : Path) :
    (listing.found recursive dir).Perm (other.found recursive dir) := by
  refine (List.perm_ext_iff_of_nodup (found_nodup _ _)
    (found_nodup _ _)).mpr fun entry => ?_
  rw [mem_found, mem_found]

end Below

/-! ## Paths in order -/

/-- The texts of the names of a path. -/
def texts (path : Path) : List (List Char) := path.map String.toList

/-- The names of a path with slashes between them. -/
def joined (names : List (List Char)) : List Char := ['/'].intercalate names

/-- Where the left path goes on below a name that the right one has a longer
name for, the longer name goes on with a character behind the slash. -/
def SlashFirst (left right : List (List Char)) : Prop :=
  ∀ front name next rest char tail others,
    left = front ++ name :: next :: rest →
    right = front ++ (name ++ char :: tail) :: others → '/' < char

section Order

/-- A text that is before another one begins it, or stays before it. -/
theorem lex_cases {left right : List Char}
    (before : List.Lex (· < ·) left right) :
    (∃ char tail, right = left ++ char :: tail) ∨
      ∀ more others, List.Lex (· < ·) (left ++ more) (right ++ others) := by
  induction before with
  | nil => exact Or.inl ⟨_, _, rfl⟩
  | cons before induction =>
      rcases induction with ⟨char, tail, rfl⟩ | apart
      · exact Or.inl ⟨char, tail, rfl⟩
      · exact Or.inr fun more others => List.Lex.cons (apart more others)
  | rel less => exact Or.inr fun more others => List.Lex.rel less

theorem joined_cons {name : List Char} {rest : List (List Char)}
    (nonempty : rest ≠ []) :
    joined (name :: rest) = name ++ '/' :: joined rest := by
  rw [joined, List.intercalate_cons_of_ne_nil nonempty, List.append_assoc]
  rfl

theorem joined_singleton (name : List Char) : joined [name] = name :=
  List.intercalate_singleton

/-- The text of a path begins with its first name. -/
theorem joined_begins (name : List Char) (rest : List (List Char)) :
    ∃ more, joined (name :: rest) = name ++ more := by
  by_cases noRest : rest = []
  · exact ⟨[], by rw [noRest, joined_singleton, List.append_nil]⟩
  · exact ⟨_, joined_cons noRest⟩

theorem lex_append (text : List Char) (char : Char) (tail : List Char) :
    List.Lex (· < ·) text (text ++ char :: tail) := by
  induction text with
  | nil => exact List.Lex.nil
  | cons first text induction => exact List.Lex.cons induction

/-- Paths that are in the order of their names are in the order of their
texts. -/
theorem lex_joined {left right : List (List Char)}
    (before : List.Lex (· < ·) left right) (nonempty : left ≠ [])
    (slash : SlashFirst left right) :
    List.Lex (· < ·) (joined left) (joined right) := by
  induction before with
  | nil => exact absurd rfl nonempty
  | @cons name left right before induction =>
      have rightNonempty : right ≠ [] := by
        rintro rfl
        cases before
      rw [joined_cons rightNonempty]
      by_cases noLeft : left = []
      · rw [noLeft, joined_singleton]
        exact lex_append name _ _
      · rw [joined_cons noLeft]
        refine List.Lex.append_left _ (List.Lex.cons (induction noLeft ?_)) name
        intro front next below rest char tail others isLeft isRight
        exact slash (name :: front) next below rest char tail others
          (congrArg _ isLeft) (congrArg _ isRight)
  | @rel name left other right less =>
      obtain ⟨more, isRight⟩ := joined_begins other right
      rcases lex_cases less with ⟨char, tail, rfl⟩ | apart
      · rw [isRight, List.append_assoc]
        cases left with
        | nil =>
            rw [joined_singleton]
            exact lex_append name _ _
        | cons next rest =>
            rw [joined_cons (List.cons_ne_nil _ _)]
            have later := slash [] name next rest char tail right rfl rfl
            exact List.Lex.append_left _ (List.Lex.rel later) name
      · obtain ⟨front, isLeft⟩ := joined_begins name left
        rw [isLeft, isRight]
        exact apart front more

end Order

/-! ## Trees of tables -/

/-- What a table gives for a path. -/
def tableGet (entries : List (Path × Object φ)) (path : Path) :
    Option (Object φ) :=
  if path = [] then some .dir
  else (entries.find? fun entry => entry.1 = path).map Prod.snd

/-- A table has each path once, and with it the directory that it is in. -/
structure IsTree (entries : List (Path × Object φ)) : Prop where
  nodup : (entries.map Prod.fst).Nodup
  inDir :
    ∀ entry ∈ entries, entry.1 ≠ [] ∧
      isDirectory (tableGet entries entry.1.dropLast) = true

section Table

variable {entries : List (Path × Object φ)}

theorem tableGet_isSome {path : Path} (nonempty : path ≠ []) :
    (tableGet entries path).isSome ↔ path ∈ entries.map Prod.fst := by
  rw [tableGet, if_neg nonempty, Option.isSome_map, List.find?_isSome,
    List.mem_map]
  simp only [decide_eq_true_eq]

/-- What is in a tree is in its table, but for the root. -/
theorem mem_of_tableGet {path : Path} {object : Object φ}
    (isThere : tableGet entries path = some object) :
    object = .dir ∨ (path, object) ∈ entries := by
  rw [tableGet] at isThere
  split at isThere
  · exact Or.inl (Option.some.inj isThere).symm
  · obtain ⟨entry, isFound, rfl⟩ := Option.map_eq_some_iff.mp isThere
    have isPath := List.find?_some isFound
    rw [decide_eq_true_eq] at isPath
    rw [← isPath]
    exact Or.inr (List.mem_of_find?_eq_some isFound)

/-- The tree of a table. -/
def Fs.ofTable (entries : List (Path × Object φ)) (isTree : IsTree entries) :
    Fs φ where
  get := tableGet entries
  root_dir := if_pos rfl
  parent_dir path name present := by
    have nonempty : path ++ [name] ≠ [] :=
      List.append_ne_nil_of_right_ne_nil _ (List.cons_ne_nil _ _)
    obtain ⟨entry, member, isPath⟩ :=
      List.mem_map.mp ((tableGet_isSome nonempty).mp present)
    have inDir := (isTree.inDir entry member).2
    rw [isPath, List.dropLast_concat] at inDir
    exact (isDirectory_iff _).mp inDir

theorem isTree_path (isTree : IsTree entries) {dir : Path}
    {entry : Path × Object φ}
    (member : entry ∈ entries.filter fun entry => entry.1.dropLast = dir) :
    entry.1 = dir ++ [entry.1.getLastD ""] := by
  obtain ⟨isThere, inDir⟩ := List.mem_filter.mp member
  have nonempty := (isTree.inDir entry isThere).1
  rw [← of_decide_eq_true inDir, List.getLastD_eq_getLast?,
    List.getLast?_eq_some_getLast nonempty, Option.getD_some,
    List.dropLast_append_getLast]

/-- The names of directories in the order of a table. -/
def Listing.ofTable (isTree : IsTree entries) :
    Listing (Fs.ofTable entries isTree) where
  names dir :=
    (entries.filter fun entry => entry.1.dropLast = dir).map fun entry =>
      entry.1.getLastD ""
  depth := ((entries.map fun entry => entry.1.length).max?).getD 0
  nodup dir := by
    refine List.Nodup.of_map (dir ++ [·]) ?_
    rw [List.map_map]
    have paths := isTree.nodup.sublist
      ((List.filter_sublist (p := fun entry => entry.1.dropLast = dir)).map
        Prod.fst)
    rwa [List.map_congr_left fun entry member => isTree_path isTree member]
      at paths
  mem_names dir name := by
    have nonempty : dir ++ [name] ≠ [] :=
      List.append_ne_nil_of_right_ne_nil _ (List.cons_ne_nil _ _)
    refine Iff.trans ?_ (tableGet_isSome nonempty).symm
    rw [List.mem_map, List.mem_map]
    constructor
    · rintro ⟨entry, member, rfl⟩
      exact ⟨entry, List.mem_of_mem_filter member, isTree_path isTree member⟩
    · rintro ⟨entry, member, isPath⟩
      refine ⟨entry, List.mem_filter.mpr ⟨member, ?_⟩, ?_⟩
      · rw [isPath, List.dropLast_concat]
        exact decide_eq_true rfl
      · rw [isPath, List.getLastD_concat]
  length_le path isThere := by
    by_cases isRoot : path = []
    · rw [isRoot]
      exact Nat.zero_le _
    · have member := (tableGet_isSome isRoot).mp isThere
      refine List.le_max?_getD_of_mem ?_
      have length := List.mem_map_of_mem (f := List.length) member
      rwa [List.map_map] at length

end Table

end FileSystem
