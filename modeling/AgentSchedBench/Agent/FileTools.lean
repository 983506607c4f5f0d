import AgentSchedBench.Agent.Paging
import AgentSchedBench.Agent.TextEdit
import AgentSchedBench.Library.Listings
import AgentSchedBench.Library.RealPath
import Mathlib.Data.Prod.Lex

/-!
# File tools

The file tools read, write and list by way of a file access.  The local one
resolves a path link by link and works on the place that it leads to; the one
of a container normalises the names of a path, and a shell follows the links.
-/

namespace AgentSchedBench.Agent

open AgentSchedBench.Trace (Text strip)
open FileSystem StableSort

/-! ## Paths -/

/-- How a path begins. -/
inductive PathRoot where
  | relative
  | single
  /-- Two slashes, which a path keeps. -/
  | double
deriving DecidableEq, Repr

/-- `PurePosixPath` -/
structure PurePath where
  root : PathRoot
  names : Path
deriving DecidableEq, Repr

namespace PurePath

def parse (text : String) : PurePath where
  root :=
    match text.toList with
    | '/' :: '/' :: '/' :: _ => .single
    | '/' :: '/' :: _ => .double
    | '/' :: _ => .single
    | _ => .relative
  names :=
    ((text.toList.splitOn '/').map String.ofList).filter fun name =>
      name ≠ "" ∧ name ≠ "."

end PurePath

/-- `str(path)` for the names of an absolute path. -/
def pathString (names : Path) : String :=
  String.ofList ('/' :: joined (texts names))

/-- A name that no system call takes. -/
def HasNul (names : Path) : Prop := ∃ name ∈ names, Char.ofNat 0 ∈ name.toList

instance (names : Path) : Decidable (HasNul names) :=
  inferInstanceAs (Decidable (∃ name ∈ names, Char.ofNat 0 ∈ name.toList))

/-! ## Errors -/

/-- The exceptions of a file access, with their texts. -/
inductive FileError where
  | fileNotFound (message : String)
  | isADirectory (message : String)
  | notADirectory (message : String)
  | permission (message : String)
  | runtime (message : String)
  | other (message : String)
deriving DecidableEq, Repr

/-- `str(error)` -/
def FileError.message : FileError → String
  | fileNotFound message | isADirectory message | notADirectory message
  | permission message | runtime message | other message => message

/-! ## Resolving a path -/

/-- A file tool; its directories are absolute. -/
structure FsTool where
  workspace : Path
  allowedDir : Option Path
  extraAllowedDirs : List Path

/-- What the tools of a host meet with: the home directories, the texts of
errors, and how many links are followed at most before a loop is found. -/
structure Host where
  home : String → Option PurePath
  links : Nat
  loopText : Path → String
  writeError : Fs ByteArray → Path → String

/-- What the tools of a container meet with: what its shell says of a write
that fails, what it reads of a special file, and what its `echo` prints. -/
structure Shell where
  writeError : Fs ByteArray → Path → String
  readSpecial : Path → Except FileError ByteArray
  echo : Text → Text

/-- `PermissionError` of a path outside of the allowed directories. -/
def outsideError (path : String) (allowed : Path) : FileError :=
  .permission <| s!"Path {path} is outside allowed directory " ++
    pathString allowed

/-- `Path(path).expanduser()`, joined to the workspace -/
def Host.joinedPath (host : Host) (tool : FsTool) (path : String) :
    Except FileError Path :=
  let parsed := PurePath.parse path
  match parsed.root, parsed.names with
  | .relative, first :: rest =>
      if first.toList.head? = some '~' then
        match host.home first with
        | none => .error (.runtime "Could not determine home directory.")
        | some home =>
            if home.root = .relative then
              .ok (tool.workspace ++ (home.names ++ rest))
            else .ok (home.names ++ rest)
      else .ok (tool.workspace ++ first :: rest)
  | .relative, [] => .ok tool.workspace
  | _, names => .ok names

/-- `any(_is_under(resolved, d) for d in all_dirs)` -/
def Host.isUnder (host : Host) (fs : Fs ByteArray) (resolved : Path) :
    List Path → Except FileError Bool
  | [] => .ok false
  | dir :: rest =>
      match fs.real host.links [] dir with
      | none => .error (.runtime (host.loopText dir))
      | some (place, _) =>
          if place.isPrefixOf resolved then .ok true
          else Host.isUnder host fs resolved rest

/-- `_resolve_path` -/
def Host.resolve (host : Host) (tool : FsTool) (fs : Fs ByteArray)
    (path : String) : Except FileError Path := do
  let names ← host.joinedPath tool path
  if HasNul names then throw (.other "embedded null byte")
  match fs.real host.links [] names with
  | none => throw (.runtime (host.loopText names))
  | some (resolved, _) =>
      match tool.allowedDir with
      | none => return resolved
      | some allowed =>
          if ← host.isUnder fs resolved (allowed :: tool.extraAllowedDirs) then
            return resolved
          else throw (outsideError path allowed)

/-- A path that `_resolve_container_path` returns. -/
structure ContainerPath where
  double : Bool
  names : Path
deriving DecidableEq, Repr

def ContainerPath.text (path : ContainerPath) : Text :=
  (if path.double then "//".toList else "/".toList) ++ joined (texts path.names)

/-- The path that is normalised by name. -/
def FsTool.normalPath (tool : FsTool) (path : String) : ContainerPath :=
  let parsed := PurePath.parse path
  match parsed.root with
  | .relative => ⟨false, Fs.normalize (tool.workspace ++ parsed.names)⟩
  | .single => ⟨false, Fs.normalize parsed.names⟩
  | .double => ⟨true, Fs.normalize parsed.names⟩

/-- `_is_under_pure` -/
def ContainerPath.isUnderPure (path : ContainerPath) (dir : Path) : Bool :=
  !path.double && dir.isPrefixOf path.names

/-- `_resolve_container_path`, and the check of the arguments of a process
that is started with the path. -/
def FsTool.resolveContainerPath (tool : FsTool) (path : String) :
    Except FileError ContainerPath := do
  let normal := tool.normalPath path
  match tool.allowedDir with
  | none => pure ()
  | some allowed =>
      if !(allowed :: tool.extraAllowedDirs).any normal.isUnderPure then
        throw (outsideError path allowed)
  if HasNul normal.names then throw (.other "embedded null byte")
  return normal

/-! ## Reading, writing and listing -/

/-- What the tools are given; an entry of a listing has its path from the
directory, and whether it is a directory. -/
structure FileAccess where
  readBytes : String → Except FileError ByteArray
  writeBytes : String → ByteArray → Except FileError (Fs ByteArray)
  listEntries : String → Bool → Except FileError (List (Text × Bool))

section Local

variable (host : Host) (tool : FsTool) (fs : Fs ByteArray)

/-- `_read_bytes_local` -/
def Host.readBytes (path : String) : Except FileError ByteArray := do
  let place ← host.resolve tool fs path
  match fs.get place with
  | none => throw (.fileNotFound s!"File not found: {path}")
  | some (.file bytes) => return bytes
  | some _ => throw (.isADirectory s!"Not a file: {path}")

/-- `_write_bytes_local` -/
def Host.writeBytes (path : String) (data : ByteArray) :
    Except FileError (Fs ByteArray) := do
  let place ← host.resolve tool fs path
  match fs.realWrite place data with
  | some written => return written
  | none => throw (.other (host.writeError fs place))

/-- `_list_entries_local` -/
def Host.listEntries (listing : Listing fs) (path : String) (recursive : Bool) :
    Except FileError (List (Text × Bool)) := do
  let dir ← host.resolve tool fs path
  match fs.get dir with
  | none => throw (.fileNotFound s!"Directory not found: {path}")
  | some .dir =>
      return (sortBy texts (listing.found recursive dir)).map fun entry =>
        (joined (texts entry), isDirectory (fs.stat (dir ++ entry)))
  | some _ => throw (.notADirectory s!"Not a directory: {path}")

/-- The file access of a host. -/
def Host.access (listing : Listing fs) : FileAccess where
  readBytes := host.readBytes tool fs
  writeBytes := host.writeBytes tool fs
  listEntries := host.listEntries tool fs listing

end Local

section Container

variable (shell : Shell) (tool : FsTool) (fs : Fs ByteArray)

/-- `_read_bytes_container` -/
def Shell.readBytes (path : String) : Except FileError ByteArray := do
  let normal ← tool.resolveContainerPath path
  match fs.stat normal.names with
  | some .dir => throw (.isADirectory s!"Not a file: {path}")
  | none => throw (.fileNotFound s!"File not found: {path}")
  | some (.file bytes) => return bytes
  | some _ => shell.readSpecial normal.names

/-- `_write_bytes_container` -/
def Shell.writeBytes (path : String) (data : ByteArray) :
    Except FileError (Fs ByteArray) := do
  let normal ← tool.resolveContainerPath path
  match fs.shellWrite normal.names data with
  | some written => return written
  | none =>
      throw <| .other <| s!"Failed to write {String.ofList normal.text}: " ++
        shell.writeError fs normal.names

/-- What `find` finds; it does not follow a path that is a link. -/
def findEntries (listing : Listing fs) (path : Path) (recursive : Bool) :
    List Path :=
  match fs.locate path with
  | none => []
  | some place =>
      if isDirectory (fs.get place) then listing.found recursive place else []

/-- How `find` prints a path below the one that it is given. -/
def ContainerPath.foundText (path : ContainerPath) (entry : Path) : Text :=
  path.text ++ (if path.names = [] then [] else ['/']) ++ joined (texts entry)

/-- What is echoed for an entry. -/
def ContainerPath.line (path : ContainerPath) (isDir : Bool) (entry : Path) :
    Text :=
  (if isDir then "d:".toList else "f:".toList) ++ path.foundText entry

/-- What the shell prints of the entries that `find` gives it. -/
def Shell.printed (listing : Listing fs) (path : ContainerPath)
    (recursive : Bool) : Text :=
  (findEntries fs listing path.names recursive).flatMap fun entry =>
    shell.echo
      (path.line (isDirectory (fs.stat (path.names ++ entry))) entry)

/-- An entry of a line, by the slices of the parser. -/
def ContainerPath.parseLine (path : ContainerPath) (line : Text) : Text × Bool :=
  let fullPath := line.drop 2
  (if (path.text ++ ['/']).isPrefixOf fullPath then
      fullPath.drop (path.text.length + 1)
    else fullPath,
    line.head? = some 'd')

/-- `_list_entries_container` -/
def Shell.listEntries (listing : Listing fs) (path : String)
    (recursive : Bool) : Except FileError (List (Text × Bool)) := do
  let normal ← tool.resolveContainerPath path
  match fs.stat normal.names with
  | none => throw (.fileNotFound s!"Directory not found: {path}")
  | some .dir =>
      let lines :=
        (strip (shell.printed fs listing normal recursive)).splitOn '\n'
      return sortBy toLex <|
        (lines.filter (· ≠ [])).map normal.parseLine
  | some _ => throw (.notADirectory s!"Not a directory: {path}")

/-- The file access of a container. -/
def Shell.access (listing : Listing fs) : FileAccess where
  readBytes := shell.readBytes tool fs
  writeBytes := shell.writeBytes tool fs
  listEntries := shell.listEntries tool fs listing

end Container

/-! ## The tools -/

/-- What a tool returns: a text, or the blocks of an image. -/
inductive ToolOutput where
  | text (text : String)
  | imageBlocks (mime path : String) (raw : List UInt8)
deriving DecidableEq

/-- What the texts of both modes are made with: the type that is guessed by a
name, the text of an error of decoding, and that of an old text that is not
found. -/
structure ToolTexts where
  guessType : String → Option String
  decodeError : ByteArray → String
  notFoundMsg : (oldText content : Text) → (path : String) → String

/-- `ReadFileTool.execute` -/
def FileAccess.readFile (access : FileAccess) (texts : ToolTexts)
    (path : String) (offset : Nat) (limit : Option Nat) : ToolOutput :=
  if path = "" then .text "Error reading file: Unknown path"
  else
    match access.readBytes path with
    | .error (.fileNotFound _) => .text s!"Error: File not found: {path}"
    | .error (.isADirectory _) => .text s!"Error: Not a file: {path}"
    | .error (.permission message) => .text s!"Error: {message}"
    | .error error => .text s!"Error reading file: {error.message}"
    | .ok raw =>
        let reply :=
          ReadFileTool.execute path raw.data.toList (texts.guessType path)
            offset limit
        match reply with
        | .image mime _ => .imageBlocks mime path raw.data.toList
        | reply => .text (reply.text.getD "")

/-- `WriteFileTool.execute`, with what is there then -/
def FileAccess.writeFile (access : FileAccess) (fs : Fs ByteArray)
    (path : String) (content : Text) : ToolOutput × Fs ByteArray :=
  if path = "" then (.text "Error writing file: Unknown path", fs)
  else
    match access.writeBytes path (encodeUtf8 content) with
    | .error (.permission message) => (.text s!"Error: {message}", fs)
    | .error error => (.text s!"Error writing file: {error.message}", fs)
    | .ok written =>
        (.text s!"Successfully wrote {content.length} bytes to {path}", written)

/-- `EditFileTool.execute`, with what is there then -/
def FileAccess.editFile (access : FileAccess) (texts : ToolTexts)
    (fs : Fs ByteArray) (path : String) (oldText newText : Text)
    (replaceAll : Bool) : ToolOutput × Fs ByteArray :=
  if path = "" then (.text "Error editing file: Unknown path", fs)
  else
    match access.readBytes path with
    | .error (.fileNotFound _) => (.text s!"Error: File not found: {path}", fs)
    | .error (.permission message) => (.text s!"Error: {message}", fs)
    | .error error => (.text s!"Error editing file: {error.message}", fs)
    | .ok raw =>
        let outcome := Agent.editFile raw oldText newText replaceAll
        match outcome.reply with
        | .failed =>
            (.text s!"Error editing file: {texts.decodeError raw}", fs)
        | .notFound =>
            let content := crlfToLf ((decodeUtf8 raw).getD [])
            (.text (texts.notFoundMsg oldText content path), fs)
        | .ambiguous count =>
            (.text <| s!"Warning: old_text appears {count} times. " ++
              "Provide more context to make it unique, or set replace_all=true.",
              fs)
        | .edited =>
            match access.writeBytes path outcome.file with
            | .error (.permission message) => (.text s!"Error: {message}", fs)
            | .error error =>
                (.text s!"Error editing file: {error.message}", fs)
            | .ok written => (.text s!"Successfully edited {path}", written)

/-- `_IGNORE_DIRS` -/
def ignoreDirs : List Text :=
  [".git".toList, "node_modules".toList, "__pycache__".toList, ".venv".toList,
    "venv".toList, "dist".toList, "build".toList, ".tox".toList,
    ".mypy_cache".toList, ".pytest_cache".toList, ".ruff_cache".toList,
    ".coverage".toList, "htmlcov".toList]

/-- `_is_ignored` -/
def isIgnored (rel : Text) (recursive : Bool) : Bool :=
  let parts :=
    (rel.map fun char => if char = '\\' then '/' else char).splitOn '/'
  if recursive then parts.any ignoreDirs.contains
  else ignoreDirs.contains (parts.getLastD [])

/-- `_DEFAULT_MAX` -/
def defaultMaxEntries : Nat := 200

/-- The text of a listing. -/
def renderEntries (path : String) (recursive : Bool) (maxEntries : Option Nat)
    (entries : List (Text × Bool)) : String :=
  let cap :=
    match maxEntries with
    | none | some 0 => defaultMaxEntries
    | some cap => cap
  let shown := entries.filter fun entry => !isIgnored entry.1 recursive
  let items := (shown.take cap).map fun entry =>
    if recursive then entry.1 ++ if entry.2 then ['/'] else []
    else (if entry.2 then "📁 ".toList else "📄 ".toList) ++ entry.1
  if shown = [] then s!"Directory {path} is empty"
  else
    String.ofList (['\n'].intercalate items) ++
      if cap < shown.length then
        s!"\n\n(truncated, showing first {cap} of {shown.length} entries)"
      else ""

/-- `ListDirTool.execute` -/
def FileAccess.listDir (access : FileAccess) (path : String)
    (recursive : Bool) (maxEntries : Option Nat) : ToolOutput :=
  match access.listEntries path recursive with
  | .error (.fileNotFound _) => .text s!"Error: Directory not found: {path}"
  | .error (.notADirectory _) => .text s!"Error: Not a directory: {path}"
  | .error (.runtime message) | .error (.permission message) =>
      .text s!"Error: {message}"
  | .error error => .text s!"Error listing directory: {error.message}"
  | .ok entries => .text (renderEntries path recursive maxEntries entries)

/-- A call of one of the tools. -/
inductive FileCall where
  | readFile (path : String) (offset : Nat) (limit : Option Nat)
  | writeFile (path : String) (content : Text)
  | editFile (path : String) (oldText newText : Text) (replaceAll : Bool)
  | listDir (path : String) (recursive : Bool) (maxEntries : Option Nat)

/-- What a call returns, and what is there then. -/
def FileAccess.execute (access : FileAccess) (texts : ToolTexts)
    (fs : Fs ByteArray) : FileCall → ToolOutput × Fs ByteArray
  | .readFile path offset limit =>
      (access.readFile texts path offset limit, fs)
  | .writeFile path content => access.writeFile fs path content
  | .editFile path oldText newText replaceAll =>
      access.editFile texts fs path oldText newText replaceAll
  | .listDir path recursive maxEntries =>
      (access.listDir path recursive maxEntries, fs)

end AgentSchedBench.Agent
