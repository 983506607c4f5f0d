import AgentSchedBench.Agent.FileTools

/-!
# File tools on a host and in a container

A path means the same to both modes when no `..` of it goes back over a link
and the kernel finds what a resolution of links leads to.  Reading, writing
and editing then have the same results where the shell can write, and so has
listing for names that survive the lines that the shell prints.
-/

namespace AgentSchedBench.Agent

open AgentSchedBench.Trace (Text strip)
open FileSystem StableSort

/-! ## Paths that mean the same -/

/-- The directories of a restriction. -/
def FsTool.allowedDirs (tool : FsTool) : List Path :=
  match tool.allowedDir with
  | none => []
  | some allowed => allowed :: tool.extraAllowedDirs

/-- The names of a path in the workspace. -/
def FsTool.pathNames (tool : FsTool) (path : String) : Path :=
  let parsed := PurePath.parse path
  if parsed.root = .relative then tool.workspace ++ parsed.names
  else parsed.names

/-- A path begins with a home directory. -/
def BeginsWithHome (path : String) : Prop :=
  (PurePath.parse path).root = .relative ∧
    ∃ first ∈ (PurePath.parse path).names.head?, first.toList.head? = some '~'

/-- A path of a tree means the same on the host and in a container. -/
structure PathAlike (host : Host) (tool : FsTool) (fs : Fs ByteArray)
    (path : String) : Prop where
  noHome : ¬ BeginsWithHome path
  /-- What no system call takes is refused by both. -/
  nul : HasNul (tool.pathNames path) →
    tool.allowedDir = none ∧ HasNul (tool.normalPath path).names
  backs : fs.BacksOverNoLink host.links (tool.pathNames path)
  /-- The links lead somewhere, and the kernel finds what is there. -/
  found :
    ∃ place left,
      fs.real host.links [] (tool.normalPath path).names = some (place, left) ∧
        ((fs.get place).isSome →
          fs.target (tool.normalPath path).names = some place)
  dirs : ∀ dir ∈ tool.allowedDirs, (fs.real host.links [] dir).isSome
  /-- The restriction judges the name as it judges the place. -/
  judged :
    tool.allowedDir.isSome → ∀ place left,
      fs.real host.links [] (tool.normalPath path).names = some (place, left) →
        ((∃ dir ∈ tool.allowedDirs, ∃ found ∈ fs.real host.links [] dir,
            found.1 <+: place) ↔
          ∃ dir ∈ tool.allowedDirs,
            (tool.normalPath path).isUnderPure dir = true)

section Resolved

variable {host : Host} {tool : FsTool} {fs : Fs ByteArray} {path : String}

theorem normalPath_names (tool : FsTool) (path : String) :
    (tool.normalPath path).names = Fs.normalize (tool.pathNames path) := by
  rw [FsTool.normalPath, FsTool.pathNames]
  cases (PurePath.parse path).root <;> rfl

theorem joinedPath_pathNames (noHome : ¬ BeginsWithHome path) :
    host.joinedPath tool path = .ok (tool.pathNames path) := by
  rw [Host.joinedPath, FsTool.pathNames]
  cases isRoot : (PurePath.parse path).root with
  | single => rfl
  | double => rfl
  | relative =>
      rw [if_pos rfl]
      cases isNames : (PurePath.parse path).names with
      | nil => rw [List.append_nil]
      | cons first rest =>
          dsimp only
          rw [if_neg]
          intro isHome
          refine noHome ⟨isRoot, first, ?_, isHome⟩
          rw [isNames]
          rfl

/-- Whether a place is under a directory is found out for each of them. -/
theorem isUnder_ok (resolved : Path) {dirs : List Path}
    (dirsFound : ∀ dir ∈ dirs, (fs.real host.links [] dir).isSome) :
    ∃ answer, host.isUnder fs resolved dirs = .ok answer ∧
      (answer = true ↔ ∃ dir ∈ dirs,
        ∃ found ∈ fs.real host.links [] dir, found.1 <+: resolved) := by
  induction dirs with
  | nil =>
      refine ⟨false, rfl, fun isTrue => absurd isTrue Bool.false_ne_true, ?_⟩
      rintro ⟨dir, member, -⟩
      exact absurd member List.not_mem_nil
  | cons dir rest induction =>
      rw [List.forall_mem_cons] at dirsFound
      obtain ⟨found, isFound⟩ := Option.isSome_iff_exists.mp dirsFound.1
      obtain ⟨answer, isAnswer, answers⟩ := induction dirsFound.2
      rw [Host.isUnder, isFound]
      dsimp only
      by_cases inside : found.1.isPrefixOf resolved = true
      · refine ⟨true, if_pos inside, fun _ => ?_, fun _ => rfl⟩
        exact ⟨dir, List.mem_cons_self, found, isFound,
          List.isPrefixOf_iff_prefix.mp inside⟩
      · refine ⟨answer, (if_neg inside).trans isAnswer, answers.trans ?_⟩
        constructor
        · rintro ⟨other, member, isUnder⟩
          exact ⟨other, List.mem_cons_of_mem _ member, isUnder⟩
        · rintro ⟨other, member, place, isPlace, isUnder⟩
          rcases List.mem_cons.mp member with rfl | inRest
          · cases isFound.symm.trans isPlace
            exact absurd (List.isPrefixOf_iff_prefix.mpr isUnder) inside
          · exact ⟨other, inRest, place, isPlace, isUnder⟩

/-- A path is resolved to a place, which is checked then. -/
theorem resolve_eq {names place : Path} {left : Nat}
    (isJoined : host.joinedPath tool path = .ok names)
    (notNul : ¬ HasNul names)
    (isReal : fs.real host.links [] names = some (place, left)) :
    host.resolve tool fs path =
      match tool.allowedDir with
      | none => .ok place
      | some allowed =>
          (host.isUnder fs place (allowed :: tool.extraAllowedDirs)).bind
            fun inside =>
              if inside = true then .ok place
              else .error (outsideError path allowed) := by
  rw [Host.resolve, isJoined]
  change (if HasNul names then _ else _) = _
  rw [if_neg notNul, isReal]
  rfl

/-- Both modes refuse the path for the same reason, or both work on the place
where it leads. -/
theorem resolve_alike (alike : PathAlike host tool fs path) :
    (∃ error, host.resolve tool fs path = .error error ∧
        tool.resolveContainerPath path = .error error) ∨
      ∃ place left, host.resolve tool fs path = .ok place ∧
        tool.resolveContainerPath path = .ok (tool.normalPath path) ∧
        fs.real host.links [] (tool.normalPath path).names =
          some (place, left) ∧
        ((fs.get place).isSome →
          fs.target (tool.normalPath path).names = some place) := by
  obtain ⟨place, left, isPlace, reached⟩ := alike.found
  have isReal : fs.real host.links [] (tool.pathNames path) =
      some (place, left) := by
    rw [← Fs.real_normalize alike.backs, ← normalPath_names, isPlace]
  have resolves (notNul : ¬ HasNul (tool.pathNames path)) :=
    resolve_eq (joinedPath_pathNames alike.noHome) notNul isReal
  by_cases nul : HasNul (tool.pathNames path)
  · obtain ⟨unrestricted, stillNul⟩ := alike.nul nul
    refine Or.inl ⟨.other "embedded null byte", ?_, ?_⟩
    · rw [Host.resolve, joinedPath_pathNames alike.noHome]
      exact if_pos nul
    · rw [FsTool.resolveContainerPath, unrestricted]
      exact if_pos stillNul
  · have noNul : ¬ HasNul (tool.normalPath path).names := by
      rintro ⟨name, member, hasNul⟩
      rw [normalPath_names] at member
      exact nul ⟨name, Fs.mem_of_mem_normalize member, hasNul⟩
    have judged := alike.judged
    have dirs := alike.dirs
    rw [FsTool.allowedDirs] at dirs judged
    cases isAllowed : tool.allowedDir with
    | none =>
        refine Or.inr ⟨place, left, ?_, ?_, isPlace, reached⟩
        · rw [resolves nul, isAllowed]
        · rw [FsTool.resolveContainerPath, isAllowed]
          exact if_neg noNul
    | some allowed =>
        rw [isAllowed] at dirs judged
        obtain ⟨answer, isAnswer, answers⟩ := isUnder_ok place dirs
        have same : answer =
            (allowed :: tool.extraAllowedDirs).any
              (tool.normalPath path).isUnderPure := by
          rw [Bool.eq_iff_iff, answers, judged rfl place left isPlace,
            List.any_eq_true]
        cases answer with
        | true =>
            refine Or.inr ⟨place, left, ?_, ?_, isPlace, reached⟩
            · rw [resolves nul, isAllowed]
              dsimp only
              rw [isAnswer]
              rfl
            · rw [FsTool.resolveContainerPath, isAllowed]
              dsimp only
              rw [← same]
              exact if_neg noNul
        | false =>
            refine Or.inl ⟨outsideError path allowed, ?_, ?_⟩
            · rw [resolves nul, isAllowed]
              dsimp only
              rw [isAnswer]
              rfl
            · rw [FsTool.resolveContainerPath, isAllowed]
              dsimp only
              rw [← same]
              rfl

/-- A path without links means the same where nothing is restricted. -/
theorem pathAlike_of_linkFree (unrestricted : tool.allowedDir = none)
    (noHome : ¬ BeginsWithHome path) (noNul : ¬ HasNul (tool.pathNames path))
    (backs : fs.BacksOverNoLink host.links (tool.pathNames path))
    (free : fs.LinkFree (tool.normalPath path).names) :
    PathAlike host tool fs path where
  noHome := noHome
  nul := fun hasNul => absurd hasNul noNul
  backs := backs
  found := by
    have valid : ValidPath (tool.normalPath path).names := by
      rw [normalPath_names]
      exact Fs.validPath_normalize _
    exact ⟨_, _, fs.real_of_linkFree _ valid free,
      fs.reach_of_linkFree _ valid free⟩
  dirs := by
    rw [FsTool.allowedDirs, unrestricted]
    exact fun _ member => absurd member List.not_mem_nil
  judged := by
    rw [unrestricted]
    exact nofun

end Resolved

/-! ## Reading and writing -/

theorem ok_bind {ε α β : Type} (value : α) (next : α → Except ε β) :
    (Except.ok value >>= next) = next value := rfl

/-- A tree of files, directories and links. -/
structure FileTree where
  fs : Fs ByteArray
  noSpecial : ∀ path, fs.get path ≠ some .special

section Access

variable {host : Host} {shell : Shell} {tool : FsTool} {tree : FileTree}
  {path : String}

/-- The kernel sees at the end of a path what a resolution leads to. -/
theorem stat_alike {fs : Fs ByteArray} {links left : Nat} {names place : Path}
    (enough : Fs.maxSymlinks ≤ links)
    (isPlace : fs.real links [] names = some (place, left))
    (reached : (fs.get place).isSome → fs.target names = some place) :
    fs.stat names = fs.get place := by
  cases isThere : fs.get place with
  | some object =>
      rw [Fs.stat, reached (Option.isSome_of_mem isThere), Option.bind_some,
        isThere]
  | none =>
      cases isTarget : fs.target names with
      | none => rw [Fs.stat, isTarget]; rfl
      | some other =>
          obtain ⟨more, isOther⟩ := Fs.real_of_reach fs isTarget
          have same := Fs.real_more fs (links - Fs.maxSymlinks) isOther
          rw [Nat.add_sub_cancel' enough, isPlace] at same
          cases same
          rw [Fs.stat, isTarget, Option.bind_some, isThere]

theorem readBytes_alike (enough : Fs.maxSymlinks ≤ host.links)
    (alike : PathAlike host tool tree.fs path) :
    host.readBytes tool tree.fs path = shell.readBytes tool tree.fs path := by
  rw [Host.readBytes, Shell.readBytes]
  rcases resolve_alike alike with
    ⟨error, onHost, inContainer⟩ | ⟨place, left, onHost, inContainer, isPlace,
      reached⟩
  · rw [onHost, inContainer]
    rfl
  · have notLink := Fs.linkFree_of_real tree.fs tree.fs.linkFree_root isPlace
      place List.prefix_rfl
    rw [onHost, inContainer, ok_bind, ok_bind,
      stat_alike enough isPlace reached]
    cases isThere : tree.fs.get place with
    | none => rfl
    | some object =>
        cases object with
        | file bytes => rfl
        | dir => rfl
        | symlink target => exact absurd isThere (notLink target)
        | special => exact absurd isThere (tree.noSpecial place)

/-- Where the shell can write, both modes leave the same. -/
theorem writeBytes_alike (enough : Fs.maxSymlinks ≤ host.links)
    (alike : PathAlike host tool tree.fs path) {data : ByteArray}
    (writable : ∀ normal, tool.resolveContainerPath path = .ok normal →
      (tree.fs.shellWrite normal.names data).isSome) :
    host.writeBytes tool tree.fs path data =
      shell.writeBytes tool tree.fs path data := by
  rw [Host.writeBytes, Shell.writeBytes]
  rcases resolve_alike alike with
    ⟨error, onHost, inContainer⟩ | ⟨place, left, onHost, inContainer, isPlace, -⟩
  · rw [onHost, inContainer]
    rfl
  · obtain ⟨written, isWritten⟩ :=
      Option.isSome_iff_exists.mp (writable _ inContainer)
    have valid : ValidPath (tool.normalPath path).names := by
      rw [normalPath_names]
      exact Fs.validPath_normalize _
    obtain ⟨other, more, isOther, sameWritten⟩ :=
      Fs.realWrite_of_shellWrite valid isWritten
    have same := Fs.real_more tree.fs (host.links - Fs.maxSymlinks) isOther
    rw [Nat.add_sub_cancel' enough, isPlace] at same
    cases same
    rw [onHost, inContainer, ok_bind, ok_bind, isWritten, sameWritten]

/-- A file that was read can be written by the shell. -/
theorem writable_of_read (alike : PathAlike host tool tree.fs path)
    {raw data : ByteArray}
    (isRead : host.readBytes tool tree.fs path = .ok raw) :
    ∀ normal, tool.resolveContainerPath path = .ok normal →
      (tree.fs.shellWrite normal.names data).isSome := by
  intro normal isNormal
  rw [Host.readBytes] at isRead
  rcases resolve_alike alike with
    ⟨error, onHost, inContainer⟩ | ⟨place, left, onHost, inContainer, isPlace,
      reached⟩
  · rw [inContainer] at isNormal
    cases isNormal
  · rw [inContainer] at isNormal
    cases isNormal
    rw [onHost, ok_bind] at isRead
    split at isRead
    · cases isRead
    · next bytes isFile =>
        exact Fs.shellWrite_of_file (reached (Option.isSome_of_mem isFile))
          isFile
    · cases isRead

end Access

/-! ## Lines of a listing -/

/-- The lines that are printed are read back if no line breaks off, and none
begins or ends with a blank. -/
theorem splitOn_strip_lines {lines : List Text}
    (nonempty : ∀ line ∈ lines, line ≠ [])
    (noBreak : ∀ line ∈ lines, '\n' ∉ line)
    (front : ∀ line ∈ lines, ∀ char ∈ line.head?, isSpace char = false)
    (back : ∀ line ∈ lines, ∀ char ∈ line.getLast?, isSpace char = false) :
    ((strip (lines.flatMap fun line => line ++ ['\n'])).splitOn '\n').filter
        (· ≠ []) = lines := by
  by_cases notNil : lines = []
  · rw [notNil]
    rfl
  · rw [Trace.strip_lines nonempty front back,
      List.splitOn_intercalate '\n' noBreak notNil, List.filter_eq_self]
    intro line member
    exact decide_eq_true (nonempty line member)

/-! ## Listings -/

/-- The lines of a container show a directory as it is. -/
structure ListedAlike (fs : Fs ByteArray) (path : ContainerPath) (dir : Path)
    (recursive : Bool) : Prop where
  /-- `find` is given a directory, and no link to one. -/
  direct : fs.lstat path.names = some .dir
  notRoot : path.names ≠ []
  plainPath : ∀ char ∈ path.text, char ≠ '\n' ∧ char ≠ '\\'
  plain :
    ∀ entry, IsEntry fs dir recursive entry →
      (∀ char ∈ joined (texts entry), char ≠ '\n' ∧ char ≠ '\\') ∧
        ∀ char ∈ (joined (texts entry)).getLast?, isSpace char = false
  /-- Links are followed alike behind those of the path. -/
  links :
    ∀ entry, IsEntry fs dir recursive entry →
      isDirectory (fs.stat (path.names ++ entry)) =
        isDirectory (fs.stat (dir ++ entry))
  slash : recursive = true →
    ∀ left right, IsEntry fs dir true left → IsEntry fs dir true right →
      isIgnored (joined (texts left)) true = false →
        isIgnored (joined (texts right)) true = false →
          SlashFirst (texts left) (texts right)

/-- `echo` prints a text without backslashes, and breaks the line. -/
def Shell.EchoPrints (shell : Shell) : Prop :=
  ∀ text : Text, '\\' ∉ text → shell.echo text = text ++ ['\n']

/-- An entry with its text, and whether it is a directory. -/
def listedAs (fs : Fs ByteArray) (dir entry : Path) : Text × Bool :=
  (joined (texts entry), isDirectory (fs.stat (dir ++ entry)))

section Listed

variable {host : Host} {shell : Shell} {tool : FsTool} {fs : Fs ByteArray}
  {path : ContainerPath} {dir : Path} {recursive : Bool}
  {listing : Listing fs}

theorem findEntries_eq (valid : ValidPath path.names) {left : Nat}
    {links : Nat} (enough : Fs.maxSymlinks ≤ links)
    (isPlace : fs.real links [] path.names = some (dir, left))
    (direct : fs.lstat path.names = some .dir) :
    findEntries fs listing path.names recursive =
      listing.found recursive dir := by
  obtain ⟨place, isLocated, isDir⟩ := Option.bind_eq_some_iff.mp direct
  obtain ⟨more, isReal⟩ := fs.real_of_locate valid isLocated fun target isLink =>
    by rw [isDir] at isLink; cases isLink
  have same := Fs.real_more fs (links - Fs.maxSymlinks) isReal
  rw [Nat.add_sub_cancel' enough, isPlace] at same
  cases same
  rw [findEntries, isLocated]
  exact if_pos ((isDirectory_iff _).mpr isDir)

theorem foundText_eq (notRoot : path.names ≠ []) (entry : Path) :
    path.foundText entry = (path.text ++ ['/']) ++ joined (texts entry) := by
  rw [ContainerPath.foundText, if_neg notRoot]

theorem parseLine_line (notRoot : path.names ≠ []) (isDir : Bool)
    (entry : Path) :
    path.parseLine (path.line isDir entry) = (joined (texts entry), isDir) := by
  have isPrefix (text : Text) :
      (path.text ++ ['/']).isPrefixOf (path.text ++ ['/'] ++ text) = true :=
    List.isPrefixOf_iff_prefix.mpr (List.prefix_append _ _)
  have dropped (text : Text) :
      (path.text ++ ['/'] ++ text).drop (path.text.length + 1) = text := by
    rw [← List.length_singleton (a := '/'), ← List.length_append,
      List.drop_left]
  have parsed : path.parseLine (path.line isDir entry) =
      (if (path.text ++ ['/']).isPrefixOf (path.foundText entry) then
          (path.foundText entry).drop (path.text.length + 1)
        else path.foundText entry, isDir) := by
    cases isDir <;> rfl
  rw [parsed, foundText_eq notRoot, if_pos (isPrefix _), dropped]

/-- The line of an entry is printed as it is, and does not end in a blank. -/
theorem line_plain (alike : ListedAlike fs path dir recursive) (isDir : Bool)
    {entry : Path} (isEntry : IsEntry fs dir recursive entry) :
    (∀ char ∈ path.line isDir entry, char ≠ '\n' ∧ char ≠ '\\') ∧
      (∀ char ∈ (path.line isDir entry).head?, isSpace char = false) ∧
      ∀ char ∈ (path.line isDir entry).getLast?, isSpace char = false := by
  obtain ⟨plain, back⟩ := alike.plain entry isEntry
  rw [ContainerPath.line, foundText_eq alike.notRoot]
  refine ⟨fun char member => ?_, ?_, fun char isLast => ?_⟩
  · rcases List.mem_append.mp member with inType | inText
    · have ofType : ∀ char ∈
          (if isDir = true then "d:".toList else "f:".toList),
          char ≠ '\n' ∧ char ≠ '\\' := by
        cases isDir <;> simp
      exact ofType char inType
    · rcases List.mem_append.mp inText with inPath | inEntry
      · rcases List.mem_append.mp inPath with inPath | isSlash
        · exact alike.plainPath char inPath
        · rw [List.mem_singleton.mp isSlash]
          decide
      · exact plain char inEntry
  · cases isDir <;>
      · rintro _ ⟨⟩
        decide
  · rw [← List.append_assoc, List.getLast?_append] at isLast
    cases isEnd : (joined (texts entry)).getLast? with
    | some last =>
        rw [isEnd] at isLast
        exact back char (isEnd.trans isLast)
    | none =>
        rw [isEnd, ← List.append_assoc, List.getLast?_concat] at isLast
        cases isLast
        decide

/-- The parser reads back the entries that are printed. -/
theorem parse_printed (echoPrints : shell.EchoPrints)
    (alike : ListedAlike fs path dir recursive)
    (isFound : findEntries fs listing path.names recursive =
      listing.found recursive dir) :
    (((strip (shell.printed fs listing path recursive)).splitOn '\n').filter
        (· ≠ [])).map path.parseLine =
      (listing.found recursive dir).map (listedAs fs dir) := by
  have plain {entry : Path} (member : entry ∈ listing.found recursive dir)
      (isDir : Bool) := line_plain alike isDir (mem_found.mp member)
  have isPrinted : shell.printed fs listing path recursive =
      ((listing.found recursive dir).map fun entry =>
        path.line (isDirectory (fs.stat (path.names ++ entry))) entry).flatMap
        fun line => line ++ ['\n'] := by
    rw [Shell.printed, isFound, List.flatMap_map]
    refine List.flatMap_congr fun entry member => echoPrints _ fun isThere => ?_
    exact ((plain member _).1 _ isThere).2 rfl
  rw [isPrinted, splitOn_strip_lines, List.map_map]
  · refine List.map_congr_left fun entry member => ?_
    rw [Function.comp_apply, parseLine_line alike.notRoot, listedAs,
      alike.links entry (mem_found.mp member)]
  all_goals
    rw [List.forall_mem_map]
    intro entry member
  · cases isDirectory (fs.stat (path.names ++ entry)) <;>
      exact List.cons_ne_nil _ _
  · exact fun isThere => ((plain member _).1 _ isThere).1 rfl
  · exact (plain member _).2.1
  · exact (plain member _).2.2

theorem texts_injective {left right : Path}
    (same : texts left = texts right) : left = right :=
  List.map_injective_iff.mpr (fun _ _ => String.toList_injective) same

/-- Single names are in the order of their texts. -/
theorem slashFirst_of_single {left right : Path} (one : left.length = 1) :
    SlashFirst (texts left) (texts right) := by
  intro front name next rest char tail others isLeft
  have length := congrArg List.length isLeft
  rw [texts, List.length_map, one, List.length_append, List.length_cons,
    List.length_cons] at length
  omega

/-- Entries that are shown are in one order for both sorts. -/
theorem listedAs_le (alike : ListedAlike fs path dir recursive)
    {left right : Path} (isLeft : IsEntry fs dir recursive left)
    (isRight : IsEntry fs dir recursive right)
    (leftShown : isIgnored (joined (texts left)) recursive = false)
    (rightShown : isIgnored (joined (texts right)) recursive = false)
    (before : texts left ≤ texts right) :
    toLex (listedAs fs dir left) ≤ toLex (listedAs fs dir right) := by
  have slash : SlashFirst (texts left) (texts right) := by
    cases recursive with
    | true => exact alike.slash rfl left right isLeft isRight leftShown rightShown
    | false =>
        exact slashFirst_of_single (isLeft.2.2.resolve_left Bool.false_ne_true)
  rcases before.lt_or_eq with less | same
  · refine le_of_lt (Prod.Lex.toLex_lt_toLex.mpr (Or.inl ?_))
    refine lex_joined less ?_ slash
    exact mt List.map_eq_nil_iff.mp isLeft.1
  · rw [texts_injective same]

/-- What is shown of a listing is sorted alike. -/
theorem shown_alike (other : Listing fs)
    (alike : ListedAlike fs path dir recursive) :
    ((sortBy texts (listing.found recursive dir)).map (listedAs fs dir)).filter
        (fun entry => !isIgnored entry.1 recursive) =
      (sortBy toLex ((other.found recursive dir).map (listedAs fs dir))).filter
        fun entry => !isIgnored entry.1 recursive := by
  have onHost :
      (((sortBy texts (listing.found recursive dir)).map
        (listedAs fs dir)).filter
          (fun entry => !isIgnored entry.1 recursive)).Pairwise
        fun left right => toLex left ≤ toLex right := by
    rw [List.pairwise_filter, List.pairwise_map]
    refine (sortBy_sorted texts _).imp_of_mem ?_
    intro left right inLeft inRight before leftShown rightShown
    rw [(sortBy_perm texts _).mem_iff, mem_found] at inLeft inRight
    simp only [Bool.not_eq_true'] at leftShown rightShown
    exact listedAs_le alike inLeft inRight leftShown rightShown before
  have inContainer :=
    (sortBy_sorted toLex ((other.found recursive dir).map (listedAs fs dir))
      ).filter fun entry => !isIgnored entry.1 recursive
  refine List.Perm.eq_of_pairwise ?_ onHost inContainer ?_
  · intro left right _ _ before after
    exact toLex.injective (le_antisymm before after)
  · refine List.Perm.filter _ ?_
    have found := ((sortBy_perm texts _).trans
      (found_perm listing other recursive dir)).map
        (listedAs fs dir)
    exact found.trans (sortBy_perm toLex _).symm

end Listed

/-! ## Calls -/

def FileCall.path : FileCall → String
  | readFile path _ _ | writeFile path _ | editFile path _ _ _
  | listDir path _ _ => path

/-- The shell can write what is to be written, and its lines show the
directory that is to be listed. -/
def FileCall.Fits (tool : FsTool) (fs : Fs ByteArray) : FileCall → Prop
  | readFile _ _ _ | editFile _ _ _ _ => True
  | writeFile path content =>
      ∀ normal, tool.resolveContainerPath path = .ok normal →
        (fs.shellWrite normal.names (encodeUtf8 content)).isSome
  | listDir path recursive _ =>
      ∀ normal dir, tool.resolveContainerPath path = .ok normal →
        fs.target normal.names = some dir → fs.get dir = some .dir →
          ListedAlike fs normal dir recursive

section Access

variable {left right : FileAccess} {path : String}

theorem readFile_congr (texts : ToolTexts)
    (sameRead : left.readBytes path = right.readBytes path) (offset : Nat)
    (limit : Option Nat) :
    left.readFile texts path offset limit =
      right.readFile texts path offset limit := by
  rw [FileAccess.readFile, FileAccess.readFile, sameRead]

theorem writeFile_congr {content : Text}
    (sameWrite :
      left.writeBytes path (encodeUtf8 content) =
        right.writeBytes path (encodeUtf8 content)) (fs : Fs ByteArray) :
    left.writeFile fs path content = right.writeFile fs path content := by
  rw [FileAccess.writeFile, FileAccess.writeFile, sameWrite]

/-- An edit writes what it has read. -/
theorem editFile_congr (texts : ToolTexts) (fs : Fs ByteArray)
    (sameRead : left.readBytes path = right.readBytes path)
    (sameWrite : ∀ raw, left.readBytes path = .ok raw →
      ∀ data, left.writeBytes path data = right.writeBytes path data)
    (oldText newText : Text) (replaceAll : Bool) :
    left.editFile texts fs path oldText newText replaceAll =
      right.editFile texts fs path oldText newText replaceAll := by
  rw [FileAccess.editFile, FileAccess.editFile, ← sameRead]
  cases isRead : left.readBytes path with
  | error error =>
      split
      · rfl
      · cases error <;> rfl
  | ok raw => simp only [sameWrite raw isRead]

/-- A listing is shown without the entries that are ignored. -/
theorem listDir_congr {recursive : Bool} {maxEntries : Option Nat}
    (same :
      left.listEntries path recursive = right.listEntries path recursive ∨
        ∃ entries others, left.listEntries path recursive = .ok entries ∧
          right.listEntries path recursive = .ok others ∧
          entries.filter (fun entry => !isIgnored entry.1 recursive) =
            others.filter fun entry => !isIgnored entry.1 recursive) :
    left.listDir path recursive maxEntries =
      right.listDir path recursive maxEntries := by
  rw [FileAccess.listDir, FileAccess.listDir]
  rcases same with same | ⟨entries, others, isLeft, isRight, shown⟩
  · rw [same]
  · rw [isLeft, isRight]
    dsimp only
    rw [renderEntries.eq_def, renderEntries.eq_def, shown]

end Access

section Calls

variable {host : Host} {shell : Shell} {tool : FsTool} {tree : FileTree}
  {path : String}

/-- Both modes list the same, but for entries that are not shown. -/
theorem listEntries_alike (enough : Fs.maxSymlinks ≤ host.links)
    (echoPrints : shell.EchoPrints) (alike : PathAlike host tool tree.fs path)
    (hostListing containerListing : Listing tree.fs) {recursive : Bool}
    (listed : ∀ normal dir, tool.resolveContainerPath path = .ok normal →
      tree.fs.target normal.names = some dir → tree.fs.get dir = some .dir →
        ListedAlike tree.fs normal dir recursive) :
    host.listEntries tool tree.fs hostListing path recursive =
        shell.listEntries tool tree.fs containerListing path recursive ∨
      ∃ entries others,
        host.listEntries tool tree.fs hostListing path recursive =
          .ok entries ∧
        shell.listEntries tool tree.fs containerListing path recursive =
          .ok others ∧
        entries.filter (fun entry => !isIgnored entry.1 recursive) =
          others.filter fun entry => !isIgnored entry.1 recursive := by
  rw [Host.listEntries, Shell.listEntries]
  rcases resolve_alike alike with
    ⟨error, onHost, inContainer⟩ | ⟨place, left, onHost, inContainer, isPlace,
      reached⟩
  · rw [onHost, inContainer]
    exact Or.inl rfl
  · rw [onHost, inContainer, ok_bind, ok_bind,
      stat_alike enough isPlace reached]
    cases isThere : tree.fs.get place with
    | none => exact Or.inl rfl
    | some object =>
        cases object with
        | file bytes => exact Or.inl rfl
        | symlink target => exact Or.inl rfl
        | special => exact Or.inl rfl
        | dir =>
            have valid : ValidPath (tool.normalPath path).names := by
              rw [normalPath_names]
              exact Fs.validPath_normalize _
            have fits := listed _ _ inContainer
              (reached (Option.isSome_of_mem isThere)) isThere
            have isFound : findEntries tree.fs containerListing
                (tool.normalPath path).names recursive =
                  containerListing.found recursive place :=
              findEntries_eq valid enough isPlace fits.direct
            refine Or.inr ⟨_, _, rfl, rfl, ?_⟩
            rw [parse_printed echoPrints fits isFound]
            exact shown_alike containerListing fits

end Calls

/-! ## A tree with links -/

/-- A workspace with a link to a directory outside of it, a link that leads
nowhere, a directory whose name begins that of a file, and a name of two
lines. -/
def linkedEntries : List (Path × Object ByteArray) :=
  [(["data"], .dir), (["data", "new"], .file ByteArray.empty),
    (["ws"], .dir), (["ws", "note"], .file ByteArray.empty),
    (["ws", "docs"], .symlink ["", "data"]),
    (["ws", "gone"], .symlink ["", "lost", "file"]),
    (["ws", "src"], .dir), (["ws", "src", "pkg"], .dir),
    (["ws", "src", "pkg", "run"], .file ByteArray.empty),
    (["ws", "src", "pkg-run"], .file ByteArray.empty),
    (["ws", "odd"], .dir), (["ws", "odd", "two\nlines"], .file ByteArray.empty)]

theorem linkedEntries_isTree : IsTree linkedEntries where
  nodup := by decide
  inDir := by decide

def linkedTree : FileTree where
  fs := Fs.ofTable linkedEntries linkedEntries_isTree
  noSpecial path isSpecial := by
    rcases mem_of_tableGet isSpecial with isDir | member
    · cases isDir
    · revert member
      simp [linkedEntries]

def linkedListing : Listing linkedTree.fs := Listing.ofTable linkedEntries_isTree

def sampleTool (allowedDir : Option Path) : FsTool := ⟨["ws"], allowedDir, []⟩

def sampleHost : Host where
  home _ := some ⟨.single, ["data"]⟩
  links := Fs.maxSymlinks
  loopText _ := "Symlink loop"
  writeError _ _ := "[Errno 21] Is a directory"

def sampleShell : Shell where
  writeError _ _ := "Directory nonexistent"
  readSpecial _ := .ok ByteArray.empty
  echo text := text ++ ['\n']

def sampleTexts : ToolTexts where
  guessType _ := none
  decodeError _ := "invalid start byte"
  notFoundMsg _ _ _ := "Error: old_text not found"

theorem sampleHost_resolves (path : String) (names place : Path) (left : Nat)
    (isJoined : sampleHost.joinedPath (sampleTool none) path = .ok names)
    (notNul : ¬ HasNul names)
    (isReal : linkedTree.fs.real Fs.maxSymlinks [] names = some (place, left)) :
    sampleHost.resolve (sampleTool none) linkedTree.fs path = .ok place :=
  resolve_eq isJoined notNul isReal

/-- What a call returns on the host and in a container. -/
def SampleDiffers (allowedDir : Option Path) (call : FileCall) : Prop :=
  (sampleHost.access (sampleTool allowedDir) linkedTree.fs
      linkedListing).execute sampleTexts linkedTree.fs call ≠
    (sampleShell.access (sampleTool allowedDir) linkedTree.fs
      linkedListing).execute sampleTexts linkedTree.fs call

/-- The directory of the sources has no links on its path. -/
theorem sources_pathAlike :
    PathAlike sampleHost (sampleTool none) linkedTree.fs "src" := by
  refine pathAlike_of_linkFree rfl ?_ (by decide)
    (Fs.backsOverNoLink_of_notMem (by decide)) ?_
  · rintro ⟨-, first, isFirst, isHome⟩
    have names : (PurePath.parse "src").names = ["src"] := by decide
    rw [names] at isFirst
    cases isFirst
    exact absurd isHome (by decide)
  · have names : ((sampleTool none).normalPath "src").names = ["ws", "src"] := by
      decide
    have dirs : ∀ front ∈ ["ws", "src"].inits,
        isDirectory (linkedTree.fs.get front) = true := by decide
    rw [names]
    intro front above target isLink
    have isDir := dirs front ((List.mem_inits _ _).mpr above)
    rw [isLink] at isDir
    cases isDir

theorem sources_fit :
    (FileCall.listDir "src" false none).Fits (sampleTool none)
      linkedTree.fs := by
  intro normal dir isNormal isTarget _
  have resolved : (sampleTool none).resolveContainerPath "src" =
      .ok ⟨false, ["ws", "src"]⟩ := by decide
  rw [resolved] at isNormal
  cases isNormal
  have reached : linkedTree.fs.target ["ws", "src"] = some ["ws", "src"] := by
    decide
  rw [reached] at isTarget
  cases isTarget
  have entries : linkedListing.found false ["ws", "src"] =
      [["pkg"], ["pkg-run"]] := by decide
  have listed {entry : Path}
      (isEntry : IsEntry linkedTree.fs ["ws", "src"] false entry) :
      entry = ["pkg"] ∨ entry = ["pkg-run"] := by
    have member : entry ∈ linkedListing.found false ["ws", "src"] :=
      mem_found.mpr isEntry
    rw [entries] at member
    exact List.mem_pair.mp member
  exact {
    direct := by decide
    notRoot := List.cons_ne_nil _ _
    plainPath := by
      have text : ContainerPath.text ⟨false, ["ws", "src"]⟩ =
          ['/', 'w', 's', '/', 's', 'r', 'c'] := rfl
      simp [text]
    plain := fun entry isEntry => by
      have texts : joined (texts ["pkg"]) = ['p', 'k', 'g'] ∧
          joined (texts ["pkg-run"]) = ['p', 'k', 'g', '-', 'r', 'u', 'n'] :=
        ⟨rfl, rfl⟩
      rcases listed isEntry with rfl | rfl
      · simp [texts.1, isSpace]
      · simp [texts.2, isSpace]
    links := fun entry isEntry => by
      rcases listed isEntry with rfl | rfl <;> decide
    slash := nofun }

end AgentSchedBench.Agent
