import Mathlib.Data.List.Basic
import Mathlib.Data.List.Infix

/-!
# File systems as finite-depth path maps

A file system assigns an object to every path, where a path is the list of
its components below `/`.  The two fields of `Fs` say that `/` is a directory
and that whatever exists lies in a directory, so an object below a regular
file or below nothing cannot be built.

Paths given to a system call are resolved component by component.  Symbolic
links met on the way are followed, with the usual bound on their number; the
last component of a path is not followed by `locate`, `lstat` and the calls
built on them.
-/

namespace FileSystem

/-- The components of a path; also a path string split at `/`. -/
abbrev Path := List String

/-- What a directory entry can be.  The payload is what a regular file holds. -/
inductive Object (φ : Type) where
  | file (payload : φ)
  | symlink (target : Path)
  | dir
  | special
deriving DecidableEq, Repr

/-- Is there a directory at this place? -/
def isDirectory {φ : Type} : Option (Object φ) → Bool
  | some .dir => true
  | _ => false

@[simp]
theorem isDirectory_iff {φ : Type} (object : Option (Object φ)) :
    isDirectory object = true ↔ object = some .dir := by
  cases object with
  | none => simp [isDirectory]
  | some object => cases object <;> simp [isDirectory]

/-- A component that names an entry of a directory. -/
def ValidName (name : String) : Prop :=
  name ≠ "" ∧ name ≠ "." ∧ name ≠ ".."

instance (name : String) : Decidable (ValidName name) :=
  inferInstanceAs (Decidable (name ≠ "" ∧ name ≠ "." ∧ name ≠ ".."))

/-- A path all of whose components name directory entries. -/
def ValidPath (path : Path) : Prop :=
  ∀ name ∈ path, ValidName name

instance (path : Path) : Decidable (ValidPath path) :=
  inferInstanceAs (Decidable (∀ name ∈ path, ValidName name))

theorem validPath_append {front rest : Path}
    (frontValid : ValidPath front) (restValid : ValidPath rest) :
    ValidPath (front ++ rest) := by
  intro name member
  rcases List.mem_append.mp member with inFront | inRest
  · exact frontValid name inFront
  · exact restValid name inRest

/-- An ancestor of `base ++ rest` is one of `base`, or lies below `base`. -/
theorem isPrefix_append_cases {ancestor base rest : Path}
    (isPrefix : ancestor <+: base ++ rest) :
    ancestor <+: base ∨ ∃ front, ancestor = base ++ front ∧ front <+: rest := by
  rcases List.prefix_or_prefix_of_prefix isPrefix
    (List.prefix_append base rest) with above | below
  · exact Or.inl above
  · obtain ⟨front, rfl⟩ := below
    exact Or.inr ⟨front, rfl, (List.prefix_append_right_inj base).mp isPrefix⟩

/-- A file system with regular files holding values of `φ`. -/
structure Fs (φ : Type) where
  get : Path → Option (Object φ)
  root_dir : get [] = some .dir
  parent_dir :
    ∀ path name, (get (path ++ [name])).isSome → get path = some .dir

namespace Fs

variable {φ : Type}

@[ext]
theorem ext
    {left right : Fs φ}
    (equal : ∀ path, left.get path = right.get path) :
    left = right := by
  cases left
  cases right
  congr
  exact funext equal

/-- Every proper ancestor of an existing object is a directory. -/
theorem dir_of_ancestor
    (fs : Fs φ) {ancestor : Path} :
    ∀ {below : Path}, below ≠ [] →
      (fs.get (ancestor ++ below)).isSome →
      fs.get ancestor = some .dir := by
  intro below
  induction below using List.reverseRecOn with
  | nil =>
      intro nonempty
      exact (nonempty rfl).elim
  | append_singleton front name induction =>
      intro _ present
      have parent : fs.get (ancestor ++ front) = some .dir :=
        fs.parent_dir (ancestor ++ front) name
          (by simpa [List.append_assoc] using present)
      rcases eq_or_ne front [] with rfl | nonempty
      · simpa using parent
      · exact induction nonempty (by simp [parent])

theorem dir_of_isPrefix
    (fs : Fs φ) {ancestor path : Path}
    (below : ancestor <+: path) (proper : ancestor ≠ path)
    (present : (fs.get path).isSome) :
    fs.get ancestor = some .dir := by
  obtain ⟨suffix, rfl⟩ := below
  refine fs.dir_of_ancestor ?_ present
  rintro rfl
  exact proper (List.append_nil ancestor).symm

/-- Nothing lies below a place that is not a directory. -/
theorem none_of_ancestor
    (fs : Fs φ) {ancestor path : Path}
    (below : ancestor <+: path) (proper : ancestor ≠ path)
    (notDir : fs.get ancestor ≠ some .dir) :
    fs.get path = none := by
  by_contra present
  exact notDir
    (fs.dir_of_isPrefix below proper (Option.isSome_iff_ne_none.mpr present))

theorem not_dir_below
    (fs : Fs φ) {ancestor rest : Path}
    (notDir : fs.get ancestor ≠ some .dir) :
    fs.get (ancestor ++ rest) ≠ some .dir := by
  rcases eq_or_ne rest [] with rfl | nonempty
  · simpa using notDir
  · intro isDir
    exact notDir (fs.dir_of_ancestor nonempty (by simp [isDir]))

/-- The file system that is empty but for its root. -/
def empty : Fs φ where
  get path := if path = [] then some .dir else none
  root_dir := if_pos rfl
  parent_dir path name present := by simp at present

/-! ## Removing and assigning entries -/

/-- Remove the entry at `target` with everything below it. -/
def remove (fs : Fs φ) (target : Path) : Fs φ where
  get path :=
    if target ≠ [] ∧ target <+: path then none else fs.get path
  root_dir := by
    have guard : ¬ (target ≠ [] ∧ target <+: []) := by
      rintro ⟨nonempty, isPrefix⟩
      exact nonempty (List.prefix_nil.mp isPrefix)
    simp only [guard, if_false, fs.root_dir]
  parent_dir := by
    intro path name present
    by_cases removed : target ≠ [] ∧ target <+: path
    · have alsoRemoved : target ≠ [] ∧ target <+: path ++ [name] :=
        ⟨removed.1, removed.2.trans (List.prefix_append path [name])⟩
      simp only [alsoRemoved, ne_eq, not_false_eq_true, and_self, if_true,
        Option.isSome_none, Bool.false_eq_true] at present
    · simp only [removed, if_false]
      apply fs.parent_dir path name
      split at present
      · simp at present
      · exact present

theorem get_remove
    (fs : Fs φ) {target : Path} (nonempty : target ≠ []) (path : Path) :
    (fs.remove target).get path =
      if target <+: path then none else fs.get path := by
  simp [remove, nonempty]

theorem get_remove_of_isPrefix
    (fs : Fs φ) {target path : Path} (nonempty : target ≠ [])
    (below : target <+: path) :
    (fs.remove target).get path = none := by
  rw [get_remove fs nonempty, if_pos below]

theorem get_remove_of_not_isPrefix
    (fs : Fs φ) {target path : Path}
    (apart : ¬ target <+: path) :
    (fs.remove target).get path = fs.get path := by
  simp [remove, apart]

/-- May an entry be put at `target` without losing what is below it? -/
def assignable (fs : Fs φ) (target : Path) : Bool :=
  !target.isEmpty && isDirectory (fs.get target.dropLast) &&
    !isDirectory (fs.get target)

theorem assignable_iff (fs : Fs φ) (target : Path) :
    fs.assignable target = true ↔
      target ≠ [] ∧ fs.get target.dropLast = some .dir ∧
        fs.get target ≠ some .dir := by
  rw [assignable, Bool.and_eq_true, Bool.and_eq_true, isDirectory_iff,
    Bool.not_eq_true', Bool.not_eq_true', ← Bool.not_eq_true,
    ← Bool.not_eq_true, isDirectory_iff, List.isEmpty_iff, and_assoc]

/-- Put `object` at `target`; nothing happens where that is impossible. -/
def assign (fs : Fs φ) (target : Path) (object : Object φ) : Fs φ where
  get path :=
    if path = target ∧ fs.assignable target then some object
    else fs.get path
  root_dir := by
    have guard : ¬ ([] = target ∧ fs.assignable target = true) := by
      rintro ⟨equal, possible⟩
      exact ((fs.assignable_iff target).mp possible).1 equal.symm
    simp only [guard, if_false, fs.root_dir]
  parent_dir := by
    intro path name present
    by_cases possible : fs.assignable target = true
    · obtain ⟨_, parentDir, notDir⟩ := (fs.assignable_iff target).mp possible
      by_cases child : path ++ [name] = target
      · have parentIs : path = target.dropLast := by
          rw [← child, List.dropLast_concat]
        have apart : path ≠ target := by
          intro equal
          have lengths := congrArg List.length (child.trans equal.symm)
          simp at lengths
        simp only [apart, false_and, if_false]
        rw [parentIs]
        exact parentDir
      · simp only [child, false_and, if_false] at present
        have parent := fs.parent_dir path name present
        have apart : path ≠ target := by
          rintro rfl
          exact notDir parent
        simpa only [apart, false_and, if_false] using parent
    · rw [Bool.not_eq_true] at possible
      simp only [possible, Bool.false_eq_true, and_false, if_false] at present ⊢
      exact fs.parent_dir path name present

theorem get_assign_self
    (fs : Fs φ) {target : Path} (object : Object φ)
    (nonempty : target ≠ [])
    (parentDir : fs.get target.dropLast = some .dir)
    (notDir : fs.get target ≠ some .dir) :
    (fs.assign target object).get target = some object := by
  have possible : fs.assignable target = true :=
    (fs.assignable_iff target).mpr ⟨nonempty, parentDir, notDir⟩
  simp [assign, possible]

theorem get_assign_of_ne
    (fs : Fs φ) {target path : Path} (object : Object φ)
    (apart : path ≠ target) :
    (fs.assign target object).get path = fs.get path := by
  simp [assign, apart]

/-- Does a path lie below `base` under a name that is not kept? -/
def clearedBelow (base : Path) (keep : List String) (path : Path) : Bool :=
  base.isPrefixOf path &&
    match path.drop base.length with
    | [] => false
    | name :: _ => !keep.contains name

@[simp]
theorem clearedBelow_append
    (base : Path) (keep : List String) (rest : Path) :
    clearedBelow base keep (base ++ rest) =
      match rest with
      | [] => false
      | name :: _ => !keep.contains name := by
  have isPrefix : base.isPrefixOf (base ++ rest) = true :=
    List.isPrefixOf_iff_prefix.mpr (List.prefix_append base rest)
  simp only [clearedBelow, isPrefix, Bool.true_and, List.drop_left]
  cases rest <;> rfl

theorem clearedBelow_of_not_isPrefix
    {base : Path} (keep : List String) {path : Path}
    (apart : ¬ base <+: path) :
    clearedBelow base keep path = false := by
  have notPrefix : base.isPrefixOf path = false := by
    rw [← Bool.not_eq_true, List.isPrefixOf_iff_prefix]
    exact apart
  simp [clearedBelow, notPrefix]

theorem clearedBelow_child
    {base : Path} {keep : List String} {path : Path} (name : String)
    (cleared : clearedBelow base keep path = true) :
    clearedBelow base keep (path ++ [name]) = true := by
  by_cases below : base <+: path
  · obtain ⟨rest, rfl⟩ := below
    rw [clearedBelow_append] at cleared
    rw [List.append_assoc, clearedBelow_append]
    cases rest with
    | nil => cases cleared
    | cons first rest => exact cleared
  · rw [clearedBelow_of_not_isPrefix keep below] at cleared
    cases cleared

/-- Remove every entry of the directory `base` except those of kept names. -/
def clear (fs : Fs φ) (base : Path) (keep : List String) : Fs φ where
  get path := if clearedBelow base keep path then none else fs.get path
  root_dir := by
    have guard : clearedBelow base keep [] = false := by
      cases base with
      | nil => rfl
      | cons first base => rfl
    simp [guard, fs.root_dir]
  parent_dir := by
    intro path name present
    by_cases cleared : clearedBelow base keep path = true
    · simp [clearedBelow_child name cleared] at present
    · simp only [cleared, Bool.false_eq_true, if_false]
      apply fs.parent_dir path name
      split at present
      · simp at present
      · exact present

theorem get_clear
    (fs : Fs φ) (base : Path) (keep : List String) (path : Path) :
    (fs.clear base keep).get path =
      if clearedBelow base keep path then none else fs.get path := rfl

/-! ## Path resolution -/

/-- Does a link target, split at `/`, start at the root? -/
def isAbsolute : Path → Bool
  | "" :: _ :: _ => true
  | _ => false

/--
Walk `rest` from the directory `here`; `follow` continues the walk after a
symbolic link.
-/
def stepThrough
    (fs : Fs φ) (follow : Path → Path → Option Path) :
    Path → Path → Option Path
  | here, [] => some here
  | here, name :: rest =>
      if name = "" ∨ name = "." then
        stepThrough fs follow here rest
      else if name = ".." then
        stepThrough fs follow here.dropLast rest
      else
        match fs.get (here ++ [name]) with
        | some .dir => stepThrough fs follow (here ++ [name]) rest
        | some (.symlink target) =>
            if isAbsolute target then follow [] (target ++ rest)
            else follow here (target ++ rest)
        | _ => none

/-- Resolve a directory path, following at most the given number of links. -/
def resolve (fs : Fs φ) : Nat → Path → Path → Option Path
  | 0 => fs.stepThrough fun _ _ => none
  | links + 1 => fs.stepThrough (fs.resolve links)

/-- The number of symbolic links the kernel follows before `ELOOP`. -/
def maxSymlinks : Nat := 40

/-- The real directory an absolute path leads to. -/
def resolveDir (fs : Fs φ) (path : Path) : Option Path :=
  fs.resolve maxSymlinks [] path

/-- The real place of a path whose last component is not followed. -/
def locate (fs : Fs φ) (path : Path) : Option Path :=
  match path.getLast? with
  | none => some []
  | some name => (fs.resolveDir path.dropLast).map (· ++ [name])

/-- `lstat`: the object a path leads to, without following a final link. -/
def lstat (fs : Fs φ) (path : Path) : Option (Object φ) :=
  (fs.locate path).bind fs.get

/-- `unlink` or `rmtree`: remove what a path leads to. -/
def removeAt (fs : Fs φ) (path : Path) : Fs φ :=
  match fs.locate path with
  | some place => fs.remove place
  | none => fs

/-- `mkdir`, `symlink` or the creation of a file: put an object at a path. -/
def assignAt (fs : Fs φ) (path : Path) (object : Object φ) : Fs φ :=
  match fs.locate path with
  | some place => fs.assign place object
  | none => fs

/-- No symbolic link lies strictly above the end of the path. -/
def NoLinkAbove (fs : Fs φ) (path : Path) : Prop :=
  ∀ ancestor, ancestor <+: path → ancestor ≠ path →
    ∀ target, fs.get ancestor ≠ some (.symlink target)

theorem stepThrough_of_noLink
    (fs : Fs φ) (follow : Path → Path → Option Path)
    (here rest : Path)
    (hereDir : fs.get here = some .dir)
    (valid : ValidPath rest)
    (noLink :
      ∀ front, front <+: rest →
        ∀ target, fs.get (here ++ front) ≠ some (.symlink target)) :
    fs.stepThrough follow here rest =
      if isDirectory (fs.get (here ++ rest)) then some (here ++ rest)
      else none := by
  induction rest generalizing here with
  | nil => simp [stepThrough, hereDir, isDirectory]
  | cons name rest induction =>
      have nameValid : ValidName name :=
        valid name (List.mem_cons_self)
      have restValid : ValidPath rest :=
        fun other member => valid other (List.mem_cons_of_mem name member)
      have split : here ++ name :: rest = (here ++ [name]) ++ rest := by simp
      have headPrefix : [name] <+: name :: rest := ⟨rest, rfl⟩
      have noLinkHere := noLink [name] headPrefix
      have plain : ¬ (name = "" ∨ name = ".") := by
        rintro (empty | dot)
        · exact nameValid.1 empty
        · exact nameValid.2.1 dot
      rw [stepThrough, if_neg plain, if_neg nameValid.2.2]
      have blocked :
          fs.get (here ++ [name]) ≠ some .dir →
            isDirectory (fs.get (here ++ name :: rest)) = false := by
        intro notDir
        rw [← Bool.not_eq_true, isDirectory_iff, split]
        exact fs.not_dir_below notDir
      cases found : fs.get (here ++ [name]) with
      | none =>
          simp [blocked (by simp [found])]
      | some object =>
          cases object with
          | symlink target => exact (noLinkHere target found).elim
          | dir =>
              rw [split]
              apply induction (here ++ [name]) found restValid
              intro front frontPrefix target
              have whole :=
                noLink (name :: front)
                  (List.cons_prefix_cons.mpr ⟨rfl, frontPrefix⟩) target
              simpa using whole
          | file payload =>
              simp [blocked (by simp [found])]
          | special =>
              simp [blocked (by simp [found])]

theorem resolveDir_of_noLink
    (fs : Fs φ) {path : Path}
    (valid : ValidPath path)
    (noLink :
      ∀ front, front <+: path →
        ∀ target, fs.get front ≠ some (.symlink target)) :
    fs.resolveDir path =
      if isDirectory (fs.get path) then some path else none := by
  have walked :=
    fs.stepThrough_of_noLink (fs.resolve 39) [] path fs.root_dir valid
      (by simpa using noLink)
  simpa [resolveDir, maxSymlinks, resolve] using walked

/-- Without links above it, a path in a directory is its own real place. -/
theorem locate_of_noLinkAbove
    (fs : Fs φ) {path : Path} (nonempty : path ≠ [])
    (valid : ValidPath path) (noLink : fs.NoLinkAbove path) :
    fs.locate path =
      if isDirectory (fs.get path.dropLast) then some path else none := by
  have above : path.dropLast <+: path := List.dropLast_prefix path
  have proper : path.dropLast ≠ path := by
    intro equal
    have lengths := congrArg List.length equal
    have positive := List.length_pos_iff.mpr nonempty
    rw [List.length_dropLast] at lengths
    omega
  have resolved :=
    fs.resolveDir_of_noLink
      (fun name member => valid name (List.mem_of_mem_dropLast member))
      (fun front frontPrefix => by
        apply noLink front (frontPrefix.trans above)
        rintro rfl
        exact proper
          (List.IsPrefix.eq_of_length_le above frontPrefix.length_le))
  simp only [locate, List.getLast?_eq_some_getLast nonempty, resolved]
  split <;> simp [List.dropLast_append_getLast nonempty]

theorem lstat_of_noLinkAbove
    (fs : Fs φ) {path : Path} (nonempty : path ≠ [])
    (valid : ValidPath path) (noLink : fs.NoLinkAbove path) :
    fs.lstat path = fs.get path := by
  rw [lstat, fs.locate_of_noLinkAbove nonempty valid noLink]
  split
  · rfl
  · next notDir =>
      symm
      by_contra present
      apply notDir
      rw [isDirectory_iff]
      apply fs.parent_dir path.dropLast (path.getLast nonempty)
      rw [List.dropLast_append_getLast nonempty]
      exact Option.isSome_iff_ne_none.mpr present

theorem removeAt_of_noLinkAbove
    (fs : Fs φ) {path : Path} (nonempty : path ≠ [])
    (valid : ValidPath path) (noLink : fs.NoLinkAbove path) :
    fs.removeAt path = fs.remove path := by
  rw [removeAt, fs.locate_of_noLinkAbove nonempty valid noLink]
  split
  · next place equal =>
      split at equal
      · cases equal
        rfl
      · cases equal
  · next equal =>
      split at equal
      · cases equal
      · next notDir =>
          apply Fs.ext
          intro other
          rw [fs.get_remove nonempty]
          split
          · next below =>
              by_contra present
              apply notDir
              rw [isDirectory_iff]
              apply fs.dir_of_isPrefix ((List.dropLast_prefix path).trans below)
              · intro same
                have shorter := below.length_le
                have positive := List.length_pos_iff.mpr nonempty
                rw [← same, List.length_dropLast] at shorter
                omega
              · exact Option.isSome_iff_ne_none.mpr present
          · rfl

theorem noLinkAbove_of_parent
    (fs : Fs φ) {path : Path} (parentDir : fs.get path.dropLast = some .dir) :
    fs.NoLinkAbove path := by
  intro ancestor isPrefix proper target isLink
  have above : ancestor <+: path.dropLast := by
    obtain ⟨suffix, rfl⟩ := isPrefix
    have suffixNonempty : suffix ≠ [] := by
      rintro rfl
      exact proper (List.append_nil ancestor).symm
    rw [List.dropLast_append_of_ne_nil suffixNonempty]
    exact List.prefix_append ancestor suffix.dropLast
  rcases eq_or_ne ancestor path.dropLast with rfl | apart
  · rw [parentDir] at isLink
    cases isLink
  · have isDir :=
      fs.dir_of_isPrefix above apart (by simp [parentDir])
    rw [isDir] at isLink
    cases isLink

theorem assignAt_of_parent
    (fs : Fs φ) {path : Path} (object : Object φ) (nonempty : path ≠ [])
    (valid : ValidPath path)
    (parentDir : fs.get path.dropLast = some .dir) :
    fs.assignAt path object = fs.assign path object := by
  rw [assignAt,
    fs.locate_of_noLinkAbove nonempty valid
      (fs.noLinkAbove_of_parent parentDir)]
  simp [parentDir, isDirectory]

/-- Replacing whatever is at a path of a real directory. -/
theorem get_replace
    (fs : Fs φ) {target : Path} (object : Object φ) (nonempty : target ≠ [])
    (parentDir : fs.get target.dropLast = some .dir) (path : Path) :
    ((fs.remove target).assign target object).get path =
      if path = target then some object
      else if target <+: path then none
      else fs.get path := by
  have notBelow : ¬ target <+: target.dropLast := by
    intro below
    have shorter := below.length_le
    have positive := List.length_pos_iff.mpr nonempty
    rw [List.length_dropLast] at shorter
    omega
  by_cases same : path = target
  · subst same
    rw [if_pos rfl]
    apply get_assign_self _ _ nonempty
    · rw [fs.get_remove_of_not_isPrefix notBelow, parentDir]
    · rw [fs.get_remove_of_isPrefix nonempty (List.prefix_refl path)]
      simp
  · rw [get_assign_of_ne _ _ same, if_neg same, fs.get_remove nonempty]

end Fs

end FileSystem
