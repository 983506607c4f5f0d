import AgentSchedBench.Library.FileSystem

/-!
# Real places of paths

The kernel walks a path through directories only.  A path can also be resolved
outside of the kernel, link by link: what is not there, or is no directory, is
then walked through as well.  Where the kernel arrives, so does the resolution
of links, and the names of a path may be normalised before it is resolved as
long as no `..` goes back over a link.
-/

namespace FileSystem.Fs

variable {φ : Type}

/-! ## Walks -/

/-- Walk to the entry that a path names.  The directory it is in has to be
there, the entry itself does not. -/
def stepTo (fs : Fs φ) (follow : Path → Path → Option Path) :
    Path → Path → Option Path
  | here, [] => some here
  | here, name :: rest =>
      if name = "" ∨ name = "." then stepTo fs follow here rest
      else if name = ".." then stepTo fs follow here.dropLast rest
      else
        match fs.get (here ++ [name]) with
        | some .dir => stepTo fs follow (here ++ [name]) rest
        | some (.symlink target) =>
            if isAbsolute target then follow [] (target ++ rest)
            else follow here (target ++ rest)
        | _ => if rest = [] then some (here ++ [name]) else none

/-- Walk to an entry, following at most the given number of links. -/
def reach (fs : Fs φ) : Nat → Path → Path → Option Path
  | 0 => fs.stepTo fun _ _ => none
  | links + 1 => fs.stepTo (fs.reach links)

/-- The place of the entry that an absolute path names, behind all links. -/
def target (fs : Fs φ) (path : Path) : Option Path :=
  fs.reach maxSymlinks [] path

/-- `stat`: the object that an absolute path leads to. -/
def stat (fs : Fs φ) (path : Path) : Option (Object φ) :=
  (fs.target path).bind fs.get

/-- Walk through all that is no link. -/
def stepReal (fs : Fs φ) (left : Nat)
    (follow : Path → Path → Option (Path × Nat)) :
    Path → Path → Option (Path × Nat)
  | here, [] => some (here, left)
  | here, name :: rest =>
      if name = "" ∨ name = "." then stepReal fs left follow here rest
      else if name = ".." then stepReal fs left follow here.dropLast rest
      else
        match fs.get (here ++ [name]) with
        | some (.symlink target) =>
            if isAbsolute target then follow [] (target ++ rest)
            else follow here (target ++ rest)
        | _ => stepReal fs left follow (here ++ [name]) rest

/-- Resolve a path link by link, through at most the given number of links;
the result says how many are left. -/
def real (fs : Fs φ) : Nat → Path → Path → Option (Path × Nat)
  | 0 => fs.stepReal 0 fun _ _ => none
  | links + 1 => fs.stepReal (links + 1) (fs.real links)

/-- Where a link is continued from. -/
def linkBase (here target : Path) : Path :=
  if isAbsolute target then [] else here

theorem not_plain {name : String} (valid : ValidName name) :
    ¬ (name = "" ∨ name = ".") := by
  rintro (isEmpty | isDot)
  · exact valid.1 isEmpty
  · exact valid.2.1 isDot

section Equations

variable {fs : Fs φ} {links : Nat} {here rest : Path} {name : String}

theorem stepTo_cons (follow : Path → Path → Option Path) :
    fs.stepTo follow here (name :: rest) =
      if name = "" ∨ name = "." then fs.stepTo follow here rest
      else if name = ".." then fs.stepTo follow here.dropLast rest
      else
        match fs.get (here ++ [name]) with
        | some .dir => fs.stepTo follow (here ++ [name]) rest
        | some (.symlink target) =>
            if isAbsolute target then follow [] (target ++ rest)
            else follow here (target ++ rest)
        | _ => if rest = [] then some (here ++ [name]) else none := rfl

theorem stepReal_cons (left : Nat)
    (follow : Path → Path → Option (Path × Nat)) :
    fs.stepReal left follow here (name :: rest) =
      if name = "" ∨ name = "." then fs.stepReal left follow here rest
      else if name = ".." then fs.stepReal left follow here.dropLast rest
      else
        match fs.get (here ++ [name]) with
        | some (.symlink target) =>
            if isAbsolute target then follow [] (target ++ rest)
            else follow here (target ++ rest)
        | _ => fs.stepReal left follow (here ++ [name]) rest := rfl

theorem real_nil (links : Nat) (here : Path) :
    fs.real links here [] = some (here, links) := by
  cases links <;> rfl

theorem real_skip (plain : name = "" ∨ name = ".") :
    fs.real links here (name :: rest) = fs.real links here rest := by
  cases links <;> rw [real, stepReal_cons, if_pos plain]

theorem real_up :
    fs.real links here (".." :: rest) = fs.real links here.dropLast rest := by
  have notPlain : ¬ (".." = "" ∨ ".." = ".") := by decide
  cases links <;> rw [real, stepReal_cons, if_neg notPlain, if_pos rfl]

theorem real_name (valid : ValidName name)
    (notLink : ∀ target, fs.get (here ++ [name]) ≠ some (.symlink target)) :
    fs.real links here (name :: rest) =
      fs.real links (here ++ [name]) rest := by
  cases links <;>
    · rw [real, stepReal_cons, if_neg (not_plain valid), if_neg valid.2.2]
      split
      · next target isLink => exact absurd isLink (notLink target)
      · rfl

theorem real_link (valid : ValidName name) {target : Path}
    (isLink : fs.get (here ++ [name]) = some (.symlink target)) :
    fs.real (links + 1) here (name :: rest) =
      fs.real links (linkBase here target) (target ++ rest) := by
  rw [real, stepReal_cons, if_neg (not_plain valid), if_neg valid.2.2, isLink, linkBase]
  dsimp only
  split <;> rfl

theorem real_link_zero (valid : ValidName name) {target : Path}
    (isLink : fs.get (here ++ [name]) = some (.symlink target)) :
    fs.real 0 here (name :: rest) = none := by
  rw [real, stepReal_cons, if_neg (not_plain valid), if_neg valid.2.2, isLink]
  dsimp only
  split <;> rfl

theorem reach_nil (links : Nat) (here : Path) :
    fs.reach links here [] = some here := by
  cases links <;> rfl

theorem reach_skip (plain : name = "" ∨ name = ".") :
    fs.reach links here (name :: rest) = fs.reach links here rest := by
  cases links <;> rw [reach, stepTo_cons, if_pos plain]

theorem reach_up :
    fs.reach links here (".." :: rest) = fs.reach links here.dropLast rest := by
  have notPlain : ¬ (".." = "" ∨ ".." = ".") := by decide
  cases links <;> rw [reach, stepTo_cons, if_neg notPlain, if_pos rfl]

theorem reach_name (valid : ValidName name)
    (notLink : ∀ target, fs.get (here ++ [name]) ≠ some (.symlink target)) :
    fs.reach links here (name :: rest) =
      if isDirectory (fs.get (here ++ [name])) then
        fs.reach links (here ++ [name]) rest
      else if rest = [] then some (here ++ [name])
      else none := by
  cases links <;>
    · rw [reach, stepTo_cons, if_neg (not_plain valid), if_neg valid.2.2]
      split
      · next isDir => rw [isDir]; exact (if_pos rfl).symm
      · next target isLink => exact absurd isLink (notLink target)
      · next notDir _ => rw [if_neg (mt (isDirectory_iff _).mp notDir)]

theorem reach_link (valid : ValidName name) {target : Path}
    (isLink : fs.get (here ++ [name]) = some (.symlink target)) :
    fs.reach (links + 1) here (name :: rest) =
      fs.reach links (linkBase here target) (target ++ rest) := by
  rw [reach, stepTo_cons, if_neg (not_plain valid), if_neg valid.2.2, isLink,
    linkBase]
  dsimp only
  split <;> rfl

theorem reach_link_zero (valid : ValidName name) {target : Path}
    (isLink : fs.get (here ++ [name]) = some (.symlink target)) :
    fs.reach 0 here (name :: rest) = none := by
  rw [reach, stepTo_cons, if_neg (not_plain valid), if_neg valid.2.2, isLink]
  dsimp only
  split <;> rfl

end Equations

theorem name_cases (name : String) :
    (name = "" ∨ name = ".") ∨ name = ".." ∨ ValidName name := by
  by_cases plain : name = "" ∨ name = "."
  · exact Or.inl plain
  · by_cases up : name = ".."
    · exact Or.inr (Or.inl up)
    · rw [not_or] at plain
      exact Or.inr (Or.inr ⟨plain.1, plain.2, up⟩)

theorem link_cases (object : Option (Object φ)) :
    (∃ target, object = some (.symlink target)) ∨
      ∀ target, object ≠ some (.symlink target) := by
  by_cases isLink : ∃ target, object = some (.symlink target)
  · exact Or.inl isLink
  · exact Or.inr (not_exists.mp isLink)

section Resolution

variable (fs : Fs φ)

/-- The cases of a resolution: a path has no more names, goes on by one of
them, or by the target of a link while links are left. -/
@[elab_as_elim]
theorem real_induction {motive : Nat → Path → Path → Prop}
    (nil : ∀ links here, motive links here [])
    (skip : ∀ links here name rest, name = "" ∨ name = "." →
      motive links here rest → motive links here (name :: rest))
    (up : ∀ links here rest,
      motive links here.dropLast rest → motive links here (".." :: rest))
    (name : ∀ links here name rest, ValidName name →
      (∀ target, fs.get (here ++ [name]) ≠ some (.symlink target)) →
      motive links (here ++ [name]) rest → motive links here (name :: rest))
    (stuck : ∀ here name rest target, ValidName name →
      fs.get (here ++ [name]) = some (.symlink target) →
      motive 0 here (name :: rest))
    (link : ∀ links here name rest target, ValidName name →
      fs.get (here ++ [name]) = some (.symlink target) →
      motive links (linkBase here target) (target ++ rest) →
      motive (links + 1) here (name :: rest))
    (links : Nat) (here path : Path) : motive links here path := by
  have inner (links : Nat)
      (ofLink : ∀ here name rest target, ValidName name →
        fs.get (here ++ [name]) = some (.symlink target) →
        motive links here (name :: rest))
      (here path : Path) : motive links here path := by
    induction path generalizing here with
    | nil => exact nil links here
    | cons first rest induction =>
        rcases name_cases first with plain | rfl | valid
        · exact skip links here first rest plain (induction here)
        · exact up links here rest (induction here.dropLast)
        · rcases link_cases (fs.get (here ++ [first])) with
            ⟨target, isLink⟩ | notLink
          · exact ofLink here first rest target valid isLink
          · exact name links here first rest valid notLink (induction _)
  induction links generalizing here path with
  | zero => exact inner 0 stuck here path
  | succ links induction =>
      refine inner (links + 1) (fun here name rest target valid isLink => ?_)
        here path
      exact link links here name rest target valid isLink (induction _ _)

/-- The rest of a path is resolved from where its front leads. -/
theorem real_append (links : Nat) (here front rest : Path) :
    fs.real links here (front ++ rest) =
      (fs.real links here front).bind fun found =>
        fs.real found.2 found.1 rest := by
  induction links, here, front using real_induction fs with
  | nil links here => rw [real_nil]; rfl
  | skip links here name front plain induction =>
      rw [List.cons_append, real_skip plain, real_skip plain, induction]
  | up links here front induction =>
      rw [List.cons_append, real_up, real_up, induction]
  | name links here name front valid notLink induction =>
      rw [List.cons_append, real_name valid notLink, real_name valid notLink,
        induction]
  | stuck here name front target valid isLink =>
      rw [List.cons_append, real_link_zero valid isLink,
        real_link_zero valid isLink]
      rfl
  | link links here name front target valid isLink induction =>
      rw [List.cons_append, real_link valid isLink, real_link valid isLink,
        ← List.append_assoc, induction]

/-- More links lead to the same place. -/
theorem real_more (more : Nat) {links left : Nat} {here path place : Path}
    (found : fs.real links here path = some (place, left)) :
    fs.real (links + more) here path = some (place, left + more) := by
  induction links, here, path using real_induction fs with
  | nil links here =>
      rw [real_nil] at found ⊢
      cases found
      rfl
  | skip links here name rest plain induction =>
      rw [real_skip plain] at found ⊢
      exact induction found
  | up links here rest induction =>
      rw [real_up] at found ⊢
      exact induction found
  | name links here name rest valid notLink induction =>
      rw [real_name valid notLink] at found ⊢
      exact induction found
  | stuck here name rest target valid isLink =>
      rw [real_link_zero valid isLink] at found
      cases found
  | link links here name rest target valid isLink induction =>
      rw [real_link valid isLink] at found
      rw [Nat.add_right_comm, real_link valid isLink]
      exact induction found

/-- A resolution depends on the links only. -/
theorem real_congr {other : Fs φ}
    (sameLinks : ∀ path target,
      fs.get path = some (.symlink target) ↔
        other.get path = some (.symlink target))
    (links : Nat) (here path : Path) :
    fs.real links here path = other.real links here path := by
  induction links, here, path using real_induction fs with
  | nil links here => rw [real_nil, real_nil]
  | skip links here name rest plain induction =>
      rw [real_skip plain, real_skip plain, induction]
  | up links here rest induction => rw [real_up, real_up, induction]
  | name links here name rest valid notLink induction =>
      rw [real_name valid notLink, real_name valid fun target =>
        mt (sameLinks _ target).mpr (notLink target), induction]
  | stuck here name rest target valid isLink =>
      rw [real_link_zero valid isLink,
        real_link_zero valid ((sameLinks _ target).mp isLink)]
  | link links here name rest target valid isLink induction =>
      rw [real_link valid isLink,
        real_link valid ((sameLinks _ target).mp isLink), induction]

/-- Where the kernel arrives, so does a resolution. -/
theorem real_of_reach {links : Nat} {here path place : Path}
    (found : fs.reach links here path = some place) :
    ∃ left, fs.real links here path = some (place, left) := by
  induction links, here, path using real_induction fs with
  | nil links here =>
      rw [reach_nil] at found
      exact ⟨links, by rw [real_nil, Option.some.inj found]⟩
  | skip links here name rest plain induction =>
      rw [reach_skip plain] at found
      rw [real_skip plain]
      exact induction found
  | up links here rest induction =>
      rw [reach_up] at found
      rw [real_up]
      exact induction found
  | name links here name rest valid notLink induction =>
      rw [reach_name valid notLink] at found
      rw [real_name valid notLink]
      split at found
      · exact induction found
      · obtain ⟨rfl, same⟩ := Option.ite_none_right_eq_some.mp found
        cases same
        exact ⟨links, real_nil links _⟩
  | stuck here name rest target valid isLink =>
      rw [reach_link_zero valid isLink] at found
      cases found
  | link links here name rest target valid isLink induction =>
      rw [reach_link valid isLink] at found
      rw [real_link valid isLink]
      exact induction found

/-- No link is at a place or above it. -/
def LinkFree (place : Path) : Prop :=
  ∀ front, front <+: place → ∀ target, fs.get front ≠ some (.symlink target)

theorem linkFree_root : fs.LinkFree [] := by
  intro front above target
  rw [List.prefix_nil.mp above, fs.root_dir]
  exact nofun

/-- A resolution leads behind all links. -/
theorem linkFree_of_real {links left : Nat} {here path place : Path}
    (free : fs.LinkFree here)
    (found : fs.real links here path = some (place, left)) :
    fs.LinkFree place := by
  induction links, here, path using real_induction fs with
  | nil links here =>
      rw [real_nil] at found
      cases found
      exact free
  | skip links here name rest plain induction =>
      rw [real_skip plain] at found
      exact induction free found
  | up links here rest induction =>
      rw [real_up] at found
      exact induction (fun front above =>
        free front (above.trans (List.dropLast_prefix here))) found
  | name links here name rest valid notLink induction =>
      rw [real_name valid notLink] at found
      refine induction (fun front above => ?_) found
      rcases List.prefix_concat_iff.mp above with rfl | above
      · exact notLink
      · exact free front above
  | stuck here name rest target valid isLink =>
      rw [real_link_zero valid isLink] at found
      cases found
  | link links here name rest target valid isLink induction =>
      rw [real_link valid isLink] at found
      refine induction ?_ found
      rw [linkBase]
      split
      · exact fs.linkFree_root
      · exact free

theorem dir_dropLast {here : Path} (hereDir : fs.get here = some .dir) :
    fs.get here.dropLast = some .dir := by
  by_cases same : here.dropLast = here
  · rw [same, hereDir]
  · exact fs.dir_of_isPrefix (List.dropLast_prefix here) same
      (Option.isSome_of_mem hereDir)

theorem dir_linkBase {here : Path} (hereDir : fs.get here = some .dir)
    (target : Path) : fs.get (linkBase here target) = some .dir := by
  rw [linkBase]
  split
  · exact fs.root_dir
  · exact hereDir

/-- A directory is resolved as an entry is that has to be a directory. -/
theorem resolve_eq_reach {links : Nat} {here path : Path}
    (hereDir : fs.get here = some .dir) :
    fs.resolve links here path =
      (fs.reach links here path).filter fun place =>
        isDirectory (fs.get place) := by
  induction links, here, path using real_induction fs with
  | nil links here =>
      rw [reach_nil, Option.filter_some, hereDir]
      cases links <;> rfl
  | skip links here name rest plain induction =>
      rw [reach_skip plain, ← induction hereDir]
      cases links <;> rw [resolve, stepThrough, if_pos plain]
  | up links here rest induction =>
      have notPlain : ¬ (".." = "" ∨ ".." = ".") := by decide
      rw [reach_up, ← induction (fs.dir_dropLast hereDir)]
      cases links <;> rw [resolve, stepThrough, if_neg notPlain, if_pos rfl]
  | name links here name rest valid notLink induction =>
      rw [reach_name valid notLink]
      by_cases isDir : fs.get (here ++ [name]) = some .dir
      · rw [if_pos ((isDirectory_iff _).mpr isDir), ← induction isDir]
        cases links <;>
          rw [resolve, stepThrough, if_neg (not_plain valid),
            if_neg valid.2.2, isDir]
      · have stops :
            fs.resolve links here (name :: rest) = none := by
          cases links <;>
            · rw [resolve, stepThrough, if_neg (not_plain valid),
                if_neg valid.2.2]
              split
              · next isDir' => exact absurd isDir' isDir
              · next target isLink => exact absurd isLink (notLink target)
              · rfl
        rw [stops, if_neg (mt (isDirectory_iff _).mp isDir)]
        split
        · rw [Option.filter_some, if_neg (mt (isDirectory_iff _).mp isDir)]
        · rfl
  | stuck here name rest target valid isLink =>
      rw [reach_link_zero valid isLink, resolve, stepThrough,
        if_neg (not_plain valid), if_neg valid.2.2, isLink]
      dsimp only
      split <;> rfl
  | link links here name rest target valid isLink induction =>
      rw [reach_link valid isLink, ← induction (fs.dir_linkBase hereDir target),
        resolve, stepThrough, if_neg (not_plain valid), if_neg valid.2.2, isLink,
        linkBase]
      dsimp only
      split <;> rfl

theorem real_concat {links : Nat} {path : Path} {found : Path × Nat}
    {name : String} (valid : ValidName name)
    (isFound : fs.real links [] path = some found)
    (notLink : ∀ target, fs.get (found.1 ++ [name]) ≠ some (.symlink target)) :
    fs.real links [] (path ++ [name]) = some (found.1 ++ [name], found.2) := by
  rw [real_append, isFound, Option.bind_some, real_name valid notLink, real_nil]

/-- A path without links is its own place. -/
theorem real_of_linkFree (links : Nat) {path : Path} (valid : ValidPath path)
    (free : fs.LinkFree path) :
    fs.real links [] path = some (path, links) := by
  induction path using List.reverseRecOn with
  | nil => exact real_nil links []
  | append_singleton above name induction =>
      have isAbove := induction
        (fun other member => valid other (List.mem_append_left _ member))
        fun front isFront => free front (isFront.trans (List.prefix_append _ _))
      exact real_concat fs (valid name (List.mem_append_right above
        List.mem_cons_self)) isAbove (free _ List.prefix_rfl)

/-- The kernel goes on from a directory. -/
theorem reach_append {links : Nat} {here front rest : Path}
    (valid : ValidPath front) (isDir : fs.get (here ++ front) = some .dir) :
    fs.reach links here (front ++ rest) =
      fs.reach links (here ++ front) rest := by
  induction front generalizing here with
  | nil => rw [List.append_nil, List.nil_append]
  | cons name front induction =>
      have onward : here ++ name :: front = (here ++ [name]) ++ front := by
        rw [List.append_assoc]
        rfl
      rw [onward] at isDir
      have nameDir : fs.get (here ++ [name]) = some .dir := by
        by_cases noFront : front = []
        · rwa [noFront, List.append_nil] at isDir
        · exact fs.dir_of_ancestor noFront (Option.isSome_of_mem isDir)
      have notLink (target : Path) :
          fs.get (here ++ [name]) ≠ some (.symlink target) := by
        rw [nameDir]
        exact nofun
      rw [List.cons_append, reach_name (valid name List.mem_cons_self) notLink,
        if_pos ((isDirectory_iff _).mpr nameDir), onward]
      exact induction
        (fun other member => valid other (List.mem_cons_of_mem _ member)) isDir

theorem reach_of_linkFree (links : Nat) {path : Path} (valid : ValidPath path)
    (free : fs.LinkFree path) (isThere : (fs.get path).isSome) :
    fs.reach links [] path = some path := by
  cases isPath : path using List.reverseRecOn with
  | nil => exact reach_nil links []
  | append_singleton above name =>
      rw [isPath] at valid free isThere
      have aboveDir : fs.get ([] ++ above) = some .dir :=
        fs.parent_dir above name isThere
      rw [reach_append fs
        (fun other member => valid other (List.mem_append_left _ member))
        aboveDir, List.nil_append, reach_name (valid name
          (List.mem_append_right above List.mem_cons_self))
          (free _ List.prefix_rfl), reach_nil, if_pos rfl, ite_self]

/-- An entry that is no link is where its path leads. -/
theorem real_of_locate {path place : Path} (valid : ValidPath path)
    (isLocated : fs.locate path = some place)
    (notLink : ∀ target, fs.get place ≠ some (.symlink target)) :
    ∃ left, fs.real maxSymlinks [] path = some (place, left) := by
  cases isPath : path using List.reverseRecOn with
  | nil =>
      rw [isPath] at isLocated
      cases isLocated
      exact ⟨maxSymlinks, real_nil _ _⟩
  | append_singleton above name =>
      rw [isPath] at valid isLocated
      rw [locate, List.getLast?_concat, List.dropLast_concat] at isLocated
      obtain ⟨dir, isDir, rfl⟩ := Option.map_eq_some_iff.mp isLocated
      rw [resolveDir, resolve_eq_reach fs fs.root_dir,
        Option.filter_eq_some_iff] at isDir
      obtain ⟨left, isReal⟩ := real_of_reach fs isDir.1
      exact ⟨left, real_concat fs (valid name (List.mem_append_right above
        List.mem_cons_self)) isReal notLink⟩

end Resolution

/-! ## Normal paths -/

/-- One name of a path that is normalised without looking at any entry. -/
def normalStep (stack : Path) (name : String) : Path :=
  if name = "" ∨ name = "." then stack
  else if name = ".." then stack.dropLast
  else stack ++ [name]

/-- The names of an absolute path without `.` and `..`. -/
def normalize (path : Path) : Path := path.foldl normalStep []

theorem normalize_snoc (front : Path) (name : String) :
    normalize (front ++ [name]) = normalStep (normalize front) name := by
  rw [normalize, List.foldl_append]
  rfl

theorem normalStep_name {stack : Path} {name : String}
    (valid : ValidName name) : normalStep stack name = stack ++ [name] := by
  rw [normalStep, if_neg (not_plain valid), if_neg valid.2.2]

theorem normalStep_up (stack : Path) : normalStep stack ".." = stack.dropLast := by
  rw [normalStep, if_neg (by decide), if_pos rfl]

theorem validPath_normalize (path : Path) : ValidPath (normalize path) := by
  induction path using List.reverseRecOn with
  | nil => exact fun _ member => absurd member List.not_mem_nil
  | append_singleton front name induction =>
      rw [normalize_snoc]
      rcases name_cases name with plain | rfl | valid
      · rw [normalStep, if_pos plain]
        exact induction
      · rw [normalStep_up]
        exact fun name member => induction name (List.mem_of_mem_dropLast member)
      · rw [normalStep_name valid]
        refine validPath_append induction fun other member => ?_
        rw [List.mem_singleton.mp member]
        exact valid

theorem mem_of_mem_normalize {name : String} {names : Path}
    (member : name ∈ normalize names) : name ∈ names := by
  induction names using List.reverseRecOn with
  | nil => exact absurd member List.not_mem_nil
  | append_singleton front last induction =>
      rw [normalize_snoc, normalStep] at member
      split at member
      · exact List.mem_append_left _ (induction member)
      · split at member
        · exact List.mem_append_left _
            (induction (List.mem_of_mem_dropLast member))
        · rcases List.mem_append.mp member with inFront | isLast
          · exact List.mem_append_left _ (induction inFront)
          · exact List.mem_append_right _ isLast

section Normal

variable (fs : Fs φ)

/-- No `..` of a path goes back over a link. -/
def BacksOverNoLink (links : Nat) (path : Path) : Prop :=
  ∀ front rest, path = front ++ ".." :: rest →
    ∀ above name, normalize front = above ++ [name] →
      ∀ place left, fs.real links [] above = some (place, left) →
        ∀ target, fs.get (place ++ [name]) ≠ some (.symlink target)

variable {fs} {links : Nat} {path : Path}

theorem backsOverNoLink_of_notMem (noUp : ".." ∉ path) :
    fs.BacksOverNoLink links path := by
  rintro front rest rfl
  exact absurd (List.mem_append_right front List.mem_cons_self) noUp

/-- A path may be normalised before it is resolved. -/
theorem real_normalize (backs : fs.BacksOverNoLink links path) :
    fs.real links [] (normalize path) = fs.real links [] path := by
  induction path using List.reverseRecOn with
  | nil => rfl
  | append_singleton front name induction =>
      have same := induction fun front' rest isFront => by
        refine backs front' (rest ++ [name]) ?_
        rw [isFront, List.append_assoc]
        rfl
      rw [normalize_snoc, real_append, ← same]
      rcases name_cases name with plain | rfl | valid
      · rw [normalStep, if_pos plain]
        cases fs.real links [] (normalize front) with
        | none => rfl
        | some found =>
            rw [Option.bind_some, real_skip plain, real_nil]
      · have goesUp (found : Path × Nat) :
            fs.real found.2 found.1 [".."] = some (found.1.dropLast, found.2) := by
          rw [real_up, real_nil]
        have valid := validPath_normalize front
        have noLink := backs front [] rfl
        rw [normalStep_up]
        cases isFront : normalize front using List.reverseRecOn with
        | nil =>
            rw [List.dropLast_nil, real_nil, Option.bind_some, goesUp,
              List.dropLast_nil]
        | append_singleton above name =>
            rw [isFront] at valid
            have validName := valid name (List.mem_append_right above
              List.mem_cons_self)
            rw [List.dropLast_concat, real_append]
            cases isAbove : fs.real links [] above with
            | none => rfl
            | some found =>
                have notLink := noLink above name isFront found.1 found.2 isAbove
                rw [Option.bind_some, real_name validName notLink, real_nil,
                  Option.bind_some, goesUp, List.dropLast_concat]
      · rw [normalStep_name valid, real_append]

end Normal

/-! ## Making directories -/

/-- Make a directory at a place, and at each place above it. -/
def withDirs (fs : Fs φ) (place : Path) : Fs φ where
  get path := if path <+: place then some .dir else fs.get path
  root_dir := if_pos List.nil_prefix
  parent_dir path name present := by
    by_cases below : path ++ [name] <+: place
    · exact if_pos ((List.prefix_append path [name]).trans below)
    · rw [if_neg below] at present
      split
      · rfl
      · exact fs.parent_dir path name present

/-- At a place, and at each place above it, is a directory or nothing. -/
def Free (fs : Fs φ) (place : Path) : Prop :=
  ∀ front ∈ place.inits, (fs.get front).isNone ∨ isDirectory (fs.get front)

instance (fs : Fs φ) (place : Path) : Decidable (fs.Free place) :=
  inferInstanceAs (Decidable (∀ front ∈ place.inits,
    (fs.get front).isNone ∨ isDirectory (fs.get front)))

/-- `mkdir -p` for a path whose names are given last first: the place of the
directory, which may have been there. -/
def mkdirFrom (fs : Fs φ) : Path → Option Path
  | [] => some []
  | name :: above =>
      match fs.resolveDir (above.reverse ++ [name]) with
      | some place => some place
      | none =>
          (mkdirFrom fs above).bind fun place =>
            -- a link that leads nowhere is there as well
            if (fs.get (place ++ [name])).isNone then some (place ++ [name])
            else none

def mkdir (fs : Fs φ) (path : Path) : Option Path :=
  fs.mkdirFrom path.reverse

/-- `mkdir -p` for the parent of a path, and `cat >` to the path. -/
def shellWrite (fs : Fs φ) (path : Path) (payload : φ) : Option (Fs φ) :=
  (fs.mkdir path.dropLast).bind fun dir =>
    ((fs.withDirs dir).target path).bind fun place =>
      if isDirectory ((fs.withDirs dir).get place) then none
      else some ((fs.withDirs dir).assign place (.file payload))

/-- Make the parents of a place that has no links above it, and write it. -/
def realWrite (fs : Fs φ) (place : Path) (payload : φ) :
    Option (Fs φ) :=
  if fs.Free place.dropLast ∧ ¬ isDirectory (fs.get place) then
    some ((fs.withDirs place.dropLast).assign place (.file payload))
  else none

section Dirs

variable {fs : Fs φ} {place : Path}

theorem free_of_dir (isDir : fs.get place = some .dir) : fs.Free place := by
  intro front inits
  right
  rw [isDirectory_iff]
  by_cases same : front = place
  · rw [same, isDir]
  · exact fs.dir_of_isPrefix ((List.mem_inits front place).mp inits) same
      (Option.isSome_of_mem isDir)

theorem withDirs_of_dir (isDir : fs.get place = some .dir) :
    fs.withDirs place = fs := by
  refine Fs.ext fun path => ?_
  change (if path <+: place then _ else _) = _
  split
  · next above =>
      by_cases same : path = place
      · rw [same, isDir]
      · exact (fs.dir_of_isPrefix above same (Option.isSome_of_mem isDir)).symm
  · rfl

/-- New directories are not seen by a resolution. -/
theorem real_withDirs (free : fs.Free place) (links : Nat) (here path : Path) :
    (fs.withDirs place).real links here path = fs.real links here path := by
  refine real_congr _ (fun other target => ?_) links here path
  change (if other <+: place then _ else _) = _ ↔ _
  split
  · next above =>
      have cases := free other ((List.mem_inits other place).mpr above)
      refine ⟨fun isLink => absurd isLink (by rintro ⟨⟩), fun isLink => ?_⟩
      rw [isLink] at cases
      rcases cases with isNone | isDir
      · cases isNone
      · cases isDir
  · rfl

theorem mkdir_snoc (fs : Fs φ) (above : Path) (name : String) :
    fs.mkdir (above ++ [name]) =
      match fs.resolveDir (above ++ [name]) with
      | some place => some place
      | none =>
          (fs.mkdir above).bind fun place =>
            if (fs.get (place ++ [name])).isNone then some (place ++ [name])
            else none := by
  rw [mkdir, List.reverse_concat, mkdirFrom, List.reverse_reverse, mkdir]

/-- The place of a directory that is made is where its path leads. -/
theorem real_of_mkdir {path : Path} (valid : ValidPath path)
    (made : fs.mkdir path = some place) :
    (∃ left, fs.real maxSymlinks [] path = some (place, left)) ∧
      fs.Free place := by
  induction path using List.reverseRecOn generalizing place with
  | nil =>
      cases made
      exact ⟨⟨maxSymlinks, real_nil _ _⟩, free_of_dir fs.root_dir⟩
  | append_singleton above name induction =>
      have validName := valid name (List.mem_append_right above
        List.mem_cons_self)
      rw [mkdir_snoc] at made
      split at made
      · next found isFound =>
          cases made
          rw [resolveDir, resolve_eq_reach fs fs.root_dir,
            Option.filter_eq_some_iff] at isFound
          rw [isDirectory_iff] at isFound
          exact ⟨real_of_reach fs isFound.1, free_of_dir isFound.2⟩
      · obtain ⟨dir, isMade, isPlace⟩ := Option.bind_eq_some_iff.mp made
        obtain ⟨missing, same⟩ := Option.ite_none_right_eq_some.mp isPlace
        obtain ⟨⟨left, isFound⟩, free⟩ := induction
          (fun other member => valid other (List.mem_append_left _ member))
          isMade
        cases same
        rw [Option.isNone_iff_eq_none] at missing
        refine ⟨⟨left, real_concat fs validName isFound fun target isLink => ?_⟩,
          fun front inits => ?_⟩
        · rw [missing] at isLink
          cases isLink
        · rcases List.prefix_concat_iff.mp ((List.mem_inits _ _).mp inits) with
            rfl | above
          · exact Or.inl (Option.isNone_iff_eq_none.mpr missing)
          · exact free front ((List.mem_inits _ _).mpr above)

/-- What the kernel arrives at is in a directory. -/
theorem dir_above_reach {links : Nat} {here path : Path}
    (hereDir : fs.get here = some .dir)
    (found : fs.reach links here path = some place) :
    fs.get place.dropLast = some .dir := by
  induction links, here, path using real_induction fs with
  | nil links here =>
      rw [reach_nil] at found
      cases found
      exact fs.dir_dropLast hereDir
  | skip links here name rest plain induction =>
      rw [reach_skip plain] at found
      exact induction hereDir found
  | up links here rest induction =>
      rw [reach_up] at found
      exact induction (fs.dir_dropLast hereDir) found
  | name links here name rest valid notLink induction =>
      rw [reach_name valid notLink] at found
      split at found
      · next isDir => exact induction ((isDirectory_iff _).mp isDir) found
      · obtain ⟨-, same⟩ := Option.ite_none_right_eq_some.mp found
        rw [← Option.some.inj same, List.dropLast_concat]
        exact hereDir
  | stuck here name rest target valid isLink =>
      rw [reach_link_zero valid isLink] at found
      cases found
  | link links here name rest target valid isLink induction =>
      rw [reach_link valid isLink] at found
      exact induction (fs.dir_linkBase hereDir target) found

/-- The directory of an entry is where its own path leads. -/
theorem resolve_above_reach {links : Nat} {here above : Path} {name : String}
    (hereDir : fs.get here = some .dir)
    (found : fs.reach links here (above ++ [name]) = some place) :
    (fs.resolve links here above).isSome := by
  induction links, here, above using real_induction fs with
  | nil links here =>
      rw [resolve_eq_reach fs hereDir, reach_nil, Option.filter_some,
        if_pos ((isDirectory_iff _).mpr hereDir)]
      rfl
  | skip links here other rest plain induction =>
      rw [List.cons_append, reach_skip plain] at found
      rw [resolve_eq_reach fs hereDir, reach_skip plain,
        ← resolve_eq_reach fs hereDir]
      exact induction hereDir found
  | up links here rest induction =>
      rw [List.cons_append, reach_up] at found
      rw [resolve_eq_reach fs hereDir, reach_up,
        ← resolve_eq_reach fs (fs.dir_dropLast hereDir)]
      exact induction (fs.dir_dropLast hereDir) found
  | name links here other rest valid notLink induction =>
      rw [List.cons_append, reach_name valid notLink] at found
      split at found
      · next isDir =>
          rw [resolve_eq_reach fs hereDir, reach_name valid notLink,
            if_pos isDir, ← resolve_eq_reach fs ((isDirectory_iff _).mp isDir)]
          exact induction ((isDirectory_iff _).mp isDir) found
      · obtain ⟨noRest, -⟩ := Option.ite_none_right_eq_some.mp found
        exact absurd noRest (List.append_ne_nil_of_right_ne_nil _
          (List.cons_ne_nil _ _))
  | stuck here other rest target valid isLink =>
      rw [List.cons_append, reach_link_zero valid isLink] at found
      cases found
  | link links here other rest target valid isLink induction =>
      have baseDir := fs.dir_linkBase hereDir target
      rw [List.cons_append, reach_link valid isLink, ← List.append_assoc]
        at found
      rw [resolve_eq_reach fs hereDir, reach_link valid isLink,
        ← resolve_eq_reach fs baseDir]
      exact induction baseDir found

/-- A file that a path leads to can be written by the shell. -/
theorem shellWrite_of_file {path : Path} {payload bytes : φ}
    (isFound : fs.target path = some place)
    (isFile : fs.get place = some (.file bytes)) :
    (fs.shellWrite path payload).isSome := by
  have nonempty : path ≠ [] := by
    rintro rfl
    cases isFound
    rw [fs.root_dir] at isFile
    cases isFile
  have isTarget := isFound
  rw [target, ← List.dropLast_append_getLast nonempty] at isFound
  obtain ⟨dir, isDir⟩ := Option.isSome_iff_exists.mp
    (resolve_above_reach fs.root_dir isFound)
  have made : fs.mkdir path.dropLast = some dir := by
    cases isAbove : path.dropLast using List.reverseRecOn with
    | nil =>
        rw [isAbove, resolve_eq_reach fs fs.root_dir, reach_nil,
          Option.filter_some, fs.root_dir] at isDir
        exact isDir
    | append_singleton front name =>
        rw [isAbove] at isDir
        rw [mkdir_snoc, resolveDir, isDir]
  have dirIsDir : fs.get dir = some .dir := by
    rw [resolve_eq_reach fs fs.root_dir, Option.filter_eq_some_iff,
      isDirectory_iff] at isDir
    exact isDir.2
  rw [shellWrite, made, Option.bind_some, withDirs_of_dir dirIsDir, isTarget,
    Option.bind_some, isFile]
  rfl

/-- Where the shell can write, a resolution that writes leaves the same. -/
theorem realWrite_of_shellWrite {path : Path} {payload : φ} {after : Fs φ}
    (valid : ValidPath path)
    (written : fs.shellWrite path payload = some after) :
    ∃ place left, fs.real maxSymlinks [] path = some (place, left) ∧
      fs.realWrite place payload = some after := by
  obtain ⟨dir, isMade, isDone⟩ := Option.bind_eq_some_iff.mp written
  obtain ⟨place, isReached, isAfter⟩ := Option.bind_eq_some_iff.mp isDone
  obtain ⟨notDir, isAfter⟩ := Option.ite_none_left_eq_some.mp isAfter
  obtain ⟨⟨madeLeft, isParent⟩, free⟩ := real_of_mkdir
    (fun other member => valid other (List.mem_of_mem_dropLast member)) isMade
  obtain ⟨left, isFound⟩ := real_of_reach _ isReached
  rw [real_withDirs free] at isFound
  refine ⟨place, left, isFound, ?_⟩
  by_cases isThere : fs.get dir = some .dir
  · -- the parent is there, and nothing is made
    rw [withDirs_of_dir isThere] at isReached notDir isAfter
    have inDir := dir_above_reach fs.root_dir isReached
    rw [realWrite, if_pos ⟨free_of_dir inDir, notDir⟩, withDirs_of_dir inDir]
    exact isAfter
  · -- the parent is made, so that the path leads to a new name in it
    have nonempty : path ≠ [] := by
      rintro rfl
      cases isMade
      exact isThere fs.root_dir
    have missing := fs.none_of_ancestor (List.prefix_append dir
      [path.getLast nonempty]) (fun same => List.cons_ne_nil _ _
        (List.self_eq_append_right.mp same)) isThere
    have isNew : place = dir ++ [path.getLast nonempty] := by
      have validName := valid _ (List.getLast_mem nonempty)
      have concat := real_concat fs validName isParent fun target isLink => by
        rw [missing] at isLink
        cases isLink
      rw [List.dropLast_append_getLast nonempty, isFound] at concat
      exact congrArg Prod.fst (Option.some.inj concat)
    rw [realWrite, if_pos]
    · rw [isNew, List.dropLast_concat, ← isNew]
      exact isAfter
    · rw [isNew, List.dropLast_concat, missing]
      exact ⟨free, Bool.false_ne_true⟩

end Dirs

end FileSystem.Fs
