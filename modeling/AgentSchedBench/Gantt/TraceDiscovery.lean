import AgentSchedBench.Library.Keyed
import AgentSchedBench.Library.Substitutions
import AgentSchedBench.Trace.Files
import Mathlib.Data.Rat.Defs
import Mathlib.Data.String.Basic

/-!
# Discovery of traces

The viewer looks for traces where its configuration says.  The trace of each
file that is found has an id from the name of its group and the name of its
directory, and no two traces may have the same id.
-/

namespace AgentSchedBench.Gantt

open AgentSchedBench.Agent (isSpace)
open AgentSchedBench.Trace (Text someLines strip)
open JsonText (loads)
open Patterns (Pattern)
open TextLines (fileLines)

/-! ## Surroundings -/

/-- What is used of Python and is not under the viewer's control. -/
structure Python where
  lower : Text → Text
  /-- The first ten digits of the hash of a path. -/
  digest : String → String
  /-- `repr` of what an object gives for a name. -/
  repr : Option Json → String
  str : Json → String
  decodeMessage : Text → String
  digest_length : ∀ path, (digest path).length = 10

/-- A file, or a directory, which has no text. -/
structure Entry where
  sizeBytes : Nat
  mtime : Rat
  text : Option Text

/-- The disk as it is during a request. -/
structure Disk where
  /-- `path.expanduser().resolve()` -/
  resolve : String → String
  entry : String → Option Entry
  glob : String → List String
  resolve_resolve : ∀ path, resolve (resolve path) = resolve path

/-- `TraceDescriptor`; its format is always a trace. -/
structure TraceDescriptor where
  id : String
  label : String
  path : String
  sizeBytes : Nat
  mtime : Rat
deriving DecidableEq

/-- What the viewer raises. -/
inductive ViewerError where
  | conflict (message : String)
  | notFound (message : String)
  | value (message : String)
  | attribute (message : String)
  | key (id : String)
deriving DecidableEq, Repr

/-! ## Names -/

/-- The names in a path, the last one first. -/
def pathNames (path : String) : List Text :=
  ((path.toList.splitOn '/').filter (· ≠ [])).reverse

/-- The name of the directory of an attempt's directory. -/
def attemptParent (path : String) : Option Text :=
  match pathNames path with
  | _ :: parent :: grandparent :: _ =>
      if "attempt_".toList <+: parent then some grandparent else none
  | _ => none

/-- `path.stem` -/
def stem (name : Text) : Text :=
  let extension := name.reverse.takeWhile (· ≠ '.')
  match name.reverse.dropWhile (· ≠ '.') with
  | [] => name
  | _ :: front => if front = [] ∨ extension = [] then name else front.reverse

def isSlugChar (keepUnderscore : Bool) (char : Char) : Bool :=
  ('a' ≤ char && char ≤ 'z') || ('0' ≤ char && char ≤ '9') ||
    (keepUnderscore && (char == '_' || char == '-'))

/-- `text.strip("-")` -/
def stripHyphens (text : Text) : Text :=
  ((text.dropWhile (· == '-')).reverse.dropWhile (· == '-')).reverse

section Discovery

variable (python : Python)

/-- `_slugify` -/
def slugify (keepUnderscore : Bool) (value : Text) : Text :=
  let others := Pattern.many (!isSlugChar keepUnderscore ·) 1 none
  let slug := stripHyphens (others.sub ['-'] (python.lower value))
  if slug = [] then "trace".toList else slug

/-- `name.split()[0] if name.split() else name` -/
def firstToken (name : Text) : Text :=
  let token := (name.dropWhile isSpace).takeWhile (!isSpace ·)
  if token = [] then name else token

/-- What is in front of the first separator that has something there. -/
def headOfName (name : Text) : List Char → Option Text
  | [] => none
  | separator :: separators =>
      let head := strip (name.takeWhile (· ≠ separator))
      if separator ∈ name ∧ head ≠ [] then some head
      else headOfName name separators

/-- `_group_slug` -/
def groupSlug (name : Text) : Text :=
  slugify python false
    ((headOfName name ['—', '–', ':', '-']).getD (firstToken name))

/-- `_trace_label` -/
def traceLabel (path : String) : Text :=
  (attemptParent path).getD ((pathNames path)[1]?.getD [])

/-- `_trace_slug` -/
def traceSlug (path : String) : Text := slugify python true (traceLabel path)

/-! ## Formats -/

def currentTraceFormatVersion : Int := 5

def isCurrentVersion : Option Json → Bool
  | some (.int version) => version == currentTraceFormatVersion
  | _ => false

def isMetadata : Option Json → Bool
  | some (.str text) => text == "trace_metadata"
  | _ => false

/-- `",".join(sorted(record.keys()))` -/
def observedKeys (fields : List (String × Json)) : String :=
  ",".intercalate (StableSort.sortBy id (fields.map Prod.fst))

/-- The checks of `sniff_format` on the first line that is not blank. -/
def sniffRecord (path : String) (line : Text) : Except ViewerError Unit :=
  match loads line with
  | none =>
      let message := python.decodeMessage line
      .error (.value s!"invalid JSONL record in {path}: {message}")
  | some (.obj fields) =>
      let recordType := fieldOf fields "type"
      let version := fieldOf fields "trace_format_version"
      let notCanonical := s!"{path} is not a canonical trace JSONL; "
      if isMetadata recordType then
        if isCurrentVersion version then .ok ()
        else
          .error (.value
            (notCanonical ++ s!"trace_format_version={python.repr version}"))
      else
        let keys := observedKeys fields
        .error (.value (notCanonical ++
          s!"first record type={python.repr recordType}, keys=[{keys}]"))
  | some _ => .error (.value s!"record in {path} is not a JSON object")

variable (disk : Disk)

/-- `sniff_format` -/
def sniffFormat (path : String) : Except ViewerError Unit :=
  let resolved := disk.resolve path
  match (disk.entry resolved).bind Entry.text with
  | none => .error (.notFound s!"trace file not found: {resolved}")
  | some text =>
      match (someLines (fileLines text)).head? with
      | none => .error (.value s!"empty JSONL file: {resolved}")
      | some line => sniffRecord python resolved (strip line)

/-- `ensure_canonical_trace_path` -/
def ensureCanonicalTracePath (path : String) : Except ViewerError String := do
  let resolved := disk.resolve path
  sniffFormat python disk resolved
  return resolved

/-! ## Discovery -/

/-- `DiscoveryGroup` -/
structure DiscoveryGroup where
  name : String
  paths : List String
deriving DecidableEq, Repr

/-- `DiscoveryConfig` -/
structure DiscoveryConfig where
  repoRoot : String
  groups : List DiscoveryGroup
deriving DecidableEq, Repr

/-- A path, which begins at the root of the repository if it has no other. -/
def DiscoveryConfig.rooted (config : DiscoveryConfig) (path : String) : String :=
  if path.toList.head? = some '/' then path else config.repoRoot ++ "/" ++ path

/-- `_expand_pattern` -/
def expandPattern (config : DiscoveryConfig) (pattern : String) : List String :=
  (StableSort.sortBy id (disk.glob (config.rooted pattern))).map disk.resolve

/-- `_build_descriptor` -/
def buildDescriptor (group : DiscoveryGroup) (path : String) :
    Except ViewerError TraceDescriptor :=
  match disk.entry path with
  | none => .error (.notFound s!"[Errno 2] No such file or directory: '{path}'")
  | some entry => do
      sniffFormat python disk path
      return {
        id := String.ofList
          (groupSlug python group.name.toList ++ '-' :: traceSlug python path)
        label := String.ofList (traceLabel path)
        path := disk.resolve path
        sizeBytes := entry.sizeBytes
        mtime := entry.mtime }

abbrev Descriptors := Keyed TraceDescriptor TraceDescriptor.id

/-- One turn of `discover_traces`. -/
def discoverTrace (found : Descriptors) (source : DiscoveryGroup × String) :
    Except ViewerError Descriptors := do
  let descriptor ← buildDescriptor python disk source.1 source.2
  if (found.get descriptor.id).isSome then
    .error (.value s!"duplicate trace id discovered: {descriptor.id}")
  else return found.put descriptor

/-- `discover_traces` -/
def discoverTraces (config : DiscoveryConfig) : Except ViewerError Descriptors := do
  let sources := config.groups.flatMap fun group =>
    group.paths.flatMap fun pattern =>
      (expandPattern disk config pattern).map (group, ·)
  let found ← sources.foldlM (discoverTrace python disk) Keyed.empty
  return found.sort

end Discovery

end AgentSchedBench.Gantt
