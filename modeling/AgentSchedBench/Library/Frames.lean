import AgentSchedBench.Library.FileSystem

/-!
# Frames of file system operations

Which paths an operation leaves alone.  `AgreesOn kept before after` says that
the two file systems hold the same objects at the paths of a set; removing,
clearing and assigning respect it as soon as they happen outside the set.
`Shrinks` says that nothing has appeared in the set.

A directory that lies at its own path is also the place its path leads to,
whatever links lie below it; this is what a program relies on that checks the
directories above its target one by one.
-/

namespace FileSystem

/-- Strictly below a directory. -/
def StrictlyBelow (base path : Path) : Prop :=
  base <+: path ∧ path ≠ base

theorem strictlyBelow_append
    {base rest : Path} (nonempty : rest ≠ []) :
    StrictlyBelow base (base ++ rest) := by
  constructor
  · exact List.prefix_append base rest
  · intro equal
    exact nonempty (List.append_right_eq_self.mp equal)

theorem StrictlyBelow.extend
    {base path longer : Path}
    (below : StrictlyBelow base path) (extends' : path <+: longer) :
    StrictlyBelow base longer := by
  constructor
  · exact below.1.trans extends'
  · rintro rfl
    exact below.2 (extends'.eq_of_length_le below.1.length_le)

namespace Fs

variable {φ : Type}

/-- The same objects at every path of the set. -/
def AgreesOn (kept : Path → Prop) (before after : Fs φ) : Prop :=
  ∀ path, kept path → after.get path = before.get path

/-- Nothing new at the paths of the set. -/
def Shrinks (kept : Path → Prop) (before after : Fs φ) : Prop :=
  ∀ path, kept path → before.get path = none → after.get path = none

theorem AgreesOn.refl (kept : Path → Prop) (fs : Fs φ) :
    AgreesOn kept fs fs :=
  fun _ _ => rfl

theorem AgreesOn.trans
    {kept : Path → Prop} {first second third : Fs φ}
    (left : AgreesOn kept first second)
    (right : AgreesOn kept second third) :
    AgreesOn kept first third := by
  intro path inside
  exact (right path inside).trans (left path inside)

theorem AgreesOn.mono
    {kept fewer : Path → Prop} {before after : Fs φ}
    (agrees : AgreesOn kept before after)
    (subset : ∀ path, fewer path → kept path) :
    AgreesOn fewer before after :=
  fun path inside => agrees path (subset path inside)

theorem AgreesOn.shrinks
    {kept : Path → Prop} {before after : Fs φ}
    (agrees : AgreesOn kept before after) :
    Shrinks kept before after := by
  intro path inside missing
  rw [agrees path inside]
  exact missing

theorem Shrinks.refl (kept : Path → Prop) (fs : Fs φ) :
    Shrinks kept fs fs :=
  fun _ _ missing => missing

theorem Shrinks.trans
    {kept : Path → Prop} {first second third : Fs φ}
    (left : Shrinks kept first second) (right : Shrinks kept second third) :
    Shrinks kept first third := by
  intro path inside missing
  exact right path inside (left path inside missing)

theorem remove_agreesOn
    (fs : Fs φ) {kept : Path → Prop} {target : Path}
    (outside :
      ∀ path, kept path → target <+: path → fs.get path = none) :
    AgreesOn kept fs (fs.remove target) := by
  intro path inside
  change (if target ≠ [] ∧ target <+: path then none else fs.get path) = _
  split
  · next below => exact (outside path inside below.2).symm
  · rfl

theorem remove_shrinks
    (fs : Fs φ) (kept : Path → Prop) (target : Path) :
    Shrinks kept fs (fs.remove target) := by
  intro path _ missing
  change (if target ≠ [] ∧ target <+: path then none else fs.get path) = none
  split
  · rfl
  · exact missing

theorem assign_agreesOn
    (fs : Fs φ) {kept : Path → Prop} {target : Path} (object : Object φ)
    (outside : ¬ kept target) :
    AgreesOn kept fs (fs.assign target object) := by
  intro path inside
  apply fs.get_assign_of_ne object
  rintro rfl
  exact outside inside

/-- What an assignment leaves was there, or is what it put. -/
theorem isSome_of_assign
    (fs : Fs φ) {target path : Path} (object : Object φ)
    (present : ((fs.assign target object).get path).isSome) :
    path = target ∨ (fs.get path).isSome := by
  by_cases same : path = target
  · exact Or.inl same
  · rw [fs.get_assign_of_ne object same] at present
    exact Or.inr present

theorem eq_nil_of_empty
    {path : Path} (present : ((empty : Fs φ).get path).isSome) :
    path = [] := by
  by_contra nonempty
  simp [empty, nonempty] at present

theorem clear_agreesOn
    (fs : Fs φ) {kept : Path → Prop} {base : Path} (keep : List String)
    (outside :
      ∀ path, kept path → clearedBelow base keep path = true →
        fs.get path = none) :
    AgreesOn kept fs (fs.clear base keep) := by
  intro path inside
  rw [fs.get_clear]
  split
  · next cleared => exact (outside path inside cleared).symm
  · rfl

theorem clear_shrinks
    (fs : Fs φ) (kept : Path → Prop) (base : Path) (keep : List String) :
    Shrinks kept fs (fs.clear base keep) := by
  intro path _ missing
  rw [fs.get_clear]
  split
  · rfl
  · exact missing

theorem strictlyBelow_of_clearedBelow
    {base path : Path} {keep : List String}
    (cleared : clearedBelow base keep path = true) :
    StrictlyBelow base path := by
  by_cases below : base <+: path
  · rcases below with ⟨rest, rfl⟩
    apply strictlyBelow_append
    rintro rfl
    rw [clearedBelow_append] at cleared
    cases cleared
  · rw [clearedBelow_of_not_isPrefix keep below] at cleared
    cases cleared

theorem clearedBelow_all_iff (base path : Path) :
    clearedBelow base [] path = true ↔ StrictlyBelow base path := by
  constructor
  · exact strictlyBelow_of_clearedBelow
  · rintro ⟨⟨rest, rfl⟩, apart⟩
    rw [clearedBelow_append]
    cases rest with
    | nil => exact (apart (List.append_nil base)).elim
    | cons name rest => simp

/-! ## Resolution from a directory at its own path -/

/-- Without links above its end, a path prefix is walked as it stands. -/
theorem stepThrough_append
    (fs : Fs φ) (follow : Path → Path → Option Path)
    (here front rest : Path)
    (hereDir : fs.get here = some .dir)
    (valid : ValidPath front)
    (frontDir : fs.get (here ++ front) = some .dir) :
    fs.stepThrough follow here (front ++ rest) =
      fs.stepThrough follow (here ++ front) rest := by
  induction front generalizing here with
  | nil => simp
  | cons name front induction =>
      have nameValid : ValidName name := valid name List.mem_cons_self
      have plain : ¬ (name = "" ∨ name = ".") := by
        rintro (empty | dot)
        · exact nameValid.1 empty
        · exact nameValid.2.1 dot
      have split : here ++ name :: front = (here ++ [name]) ++ front := by
        simp
      rw [split] at frontDir
      have nameDir : fs.get (here ++ [name]) = some .dir := by
        rcases eq_or_ne front [] with rfl | nonempty
        · simpa using frontDir
        · apply fs.dir_of_ancestor nonempty
          rw [frontDir]
          rfl
      rw [List.cons_append, stepThrough, if_neg plain,
        if_neg nameValid.2.2, nameDir, split]
      apply induction (here ++ [name]) nameDir _ frontDir
      intro other member
      exact valid other (List.mem_cons_of_mem name member)

/-- A missing component stops the walk. -/
theorem stepThrough_missing
    (fs : Fs φ) (follow : Path → Path → Option Path)
    (here : Path) (name : String) (rest : Path) (valid : ValidName name)
    (missing : fs.get (here ++ [name]) = none) :
    fs.stepThrough follow here (name :: rest) = none := by
  have plain : ¬ (name = "" ∨ name = ".") := by
    rintro (empty | dot)
    · exact valid.1 empty
    · exact valid.2.1 dot
  rw [stepThrough, if_neg plain, if_neg valid.2.2, missing]

/-- What a walk from directories to directories ends in is a directory. -/
theorem stepThrough_dir
    (fs : Fs φ) (follow : Path → Path → Option Path)
    (followDir :
      ∀ here path place, fs.get here = some .dir →
        follow here path = some place → fs.get place = some .dir)
    (here path place : Path) (hereDir : fs.get here = some .dir)
    (walked : fs.stepThrough follow here path = some place) :
    fs.get place = some .dir := by
  induction path generalizing here with
  | nil =>
      cases walked
      exact hereDir
  | cons name rest induction =>
      rw [stepThrough] at walked
      split at walked
      · exact induction here hereDir walked
      · split at walked
        · apply induction here.dropLast _ walked
          rcases eq_or_ne here [] with rfl | nonempty
          · exact fs.root_dir
          · apply fs.parent_dir here.dropLast (here.getLast nonempty)
            rw [List.dropLast_append_getLast nonempty, hereDir]
            rfl
        · split at walked
          · next found => exact induction (here ++ [name]) found walked
          · split at walked
            · exact followDir [] _ place fs.root_dir walked
            · exact followDir here _ place hereDir walked
          · cases walked

theorem resolve_dir
    (fs : Fs φ) (links : Nat) (here path place : Path)
    (hereDir : fs.get here = some .dir)
    (resolved : fs.resolve links here path = some place) :
    fs.get place = some .dir := by
  induction links generalizing here path place with
  | zero =>
      apply fs.stepThrough_dir _ _ here path place hereDir resolved
      intro _ _ _ _ impossible
      cases impossible
  | succ links induction =>
      exact fs.stepThrough_dir (fs.resolve links) induction
        here path place hereDir resolved

/-- The place a directory path leads to is a directory. -/
theorem resolveDir_dir
    (fs : Fs φ) {path place : Path}
    (resolved : fs.resolveDir path = some place) :
    fs.get place = some .dir :=
  fs.resolve_dir maxSymlinks [] path place fs.root_dir resolved

/-- From a directory at its own path, only the rest is walked. -/
theorem resolveDir_append
    (fs : Fs φ) {front : Path} (rest : Path) (valid : ValidPath front)
    (frontDir : fs.get front = some .dir) :
    fs.resolveDir (front ++ rest) =
      fs.stepThrough (fs.resolve 39) front rest := by
  simpa [resolveDir, maxSymlinks, resolve] using
    fs.stepThrough_append (fs.resolve 39) [] front rest fs.root_dir valid
      (by simpa using frontDir)

/-- A path with a last component leads to an entry of a directory. -/
theorem locate_ne_nil
    (fs : Fs φ) {path place : Path} (nonempty : path ≠ [])
    (located : fs.locate path = some place) : place ≠ [] := by
  rintro rfl
  rw [locate, List.getLast?_eq_some_getLast nonempty,
    Option.map_eq_some_iff] at located
  rcases located with ⟨parent, _, impossible⟩
  exact List.append_ne_nil_of_right_ne_nil _ (by simp) impossible

theorem locate_concat (fs : Fs φ) (parent : Path) (name : String) :
    fs.locate (parent ++ [name]) =
      (fs.resolveDir parent).map (· ++ [name]) := by
  simp [locate]

/-- A path in a directory at its own path leads where it says. -/
theorem locate_child
    (fs : Fs φ) {parent : Path} (name : String) (valid : ValidPath parent)
    (parentDir : fs.get parent = some .dir) :
    fs.locate (parent ++ [name]) = some (parent ++ [name]) := by
  have resolved : fs.resolveDir parent = some parent := by
    have walked := fs.resolveDir_append [] valid parentDir
    rw [List.append_nil] at walked
    exact walked
  rw [fs.locate_concat, resolved]
  rfl

theorem lstat_child
    (fs : Fs φ) {parent : Path} (name : String) (valid : ValidPath parent)
    (parentDir : fs.get parent = some .dir) :
    fs.lstat (parent ++ [name]) = fs.get (parent ++ [name]) := by
  rw [lstat, fs.locate_child name valid parentDir]
  rfl

/-- Below a missing directory no path leads anywhere. -/
theorem resolveDir_missing
    (fs : Fs φ) {front : Path} (name : String) (middle rest : Path)
    (valid : ValidPath (front ++ name :: middle))
    (frontDir : fs.get front = some .dir)
    (missing : fs.get (front ++ [name]) = none) :
    fs.resolveDir (front ++ name :: middle ++ rest) = none := by
  have frontValid : ValidPath front := by
    intro other member
    exact valid other (List.mem_append_left _ member)
  have nameValid : ValidName name := by
    apply valid name
    simp
  rw [List.append_assoc, List.cons_append,
    fs.resolveDir_append (name :: (middle ++ rest)) frontValid frontDir]
  exact fs.stepThrough_missing _ front name _ nameValid missing

end Fs

end FileSystem
