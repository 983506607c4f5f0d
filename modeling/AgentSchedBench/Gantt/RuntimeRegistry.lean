import AgentSchedBench.Gantt.TraceDiscovery
import AgentSchedBench.Library.IndentedJson
import Mathlib.Data.Finset.Sort

/-!
# Registry of traces

The viewer serves the traces of its configuration and those that have been
registered while it ran, less those that have been unregistered.  What was
registered and what is suppressed is kept in a state file, so that it is there
again when the viewer is started anew.
-/

namespace AgentSchedBench.Gantt

open AgentSchedBench.Trace (Text)
open JsonText (dumpsIndented loads)

/-! ## State -/

/-- `RuntimeRegisteredTrace`; its format is always a trace. -/
structure RuntimeRegisteredTrace where
  id : String
  label : String
  path : String
  origin : String
deriving DecidableEq, Repr

abbrev Registered := Keyed RuntimeRegisteredTrace RuntimeRegisteredTrace.id

/-- `RuntimeTraceRegistry`, and the text of its state file. -/
structure RuntimeTraceRegistry where
  discovered : Descriptors
  registeredById : Registered
  suppressedIds : Finset String
  descriptors : Descriptors
  stateFile : Option Text

namespace RuntimeTraceRegistry

/-- The registry before it has read anything. -/
def initial (stateFile : Option Text) : RuntimeTraceRegistry where
  discovered := Keyed.empty
  registeredById := Keyed.empty
  suppressedIds := ∅
  descriptors := Keyed.empty
  stateFile := stateFile

/-- `get_descriptor` -/
def getDescriptor (registry : RuntimeTraceRegistry) (id : String) :
    Option TraceDescriptor :=
  registry.descriptors.get id

/-- `list_descriptors` -/
def listDescriptors (registry : RuntimeTraceRegistry) : List TraceDescriptor :=
  registry.descriptors.items

/-! ## State file -/

/-- `asdict`, with the names sorted. -/
def asdict (registered : RuntimeRegisteredTrace) : Json :=
  .obj [("id", .str registered.id), ("label", .str registered.label),
    ("origin", .str registered.origin), ("path", .str registered.path),
    ("source_format", .str "trace")]

def payload (registered : Registered) (suppressed : Finset String) : Json :=
  .obj [("registered", .arr (registered.sorted.map asdict)),
    ("suppressed_ids", .arr ((suppressed.sort (· ≤ ·)).map .str))]

/-- `_save_state_file` -/
def saveStateFile (registry : RuntimeTraceRegistry) : RuntimeTraceRegistry :=
  { registry with
    stateFile :=
      if registry.registeredById.items = [] ∧ registry.suppressedIds = ∅ then none
      else
        some (dumpsIndented 2
          (payload registry.registeredById registry.suppressedIds)) }

def fieldNames : List String := ["id", "label", "path", "source_format", "origin"]

def textField (fields : List (String × Json)) (name : String) : Option String :=
  match fieldOf fields name with
  | some (.str text) => some text
  | _ => none

/-- The trace of an entry of the state file, unless the entry is skipped. -/
def registeredOf : Json → Option RuntimeRegisteredTrace
  | .obj fields =>
      if fields.all (fieldNames.contains ·.1) then do
        let id ← textField fields "id"
        let label ← textField fields "label"
        let path ← textField fields "path"
        let sourceFormat ← textField fields "source_format"
        let origin ← textField fields "origin"
        if sourceFormat = "trace" then return ⟨id, label, path, origin⟩ else none
      else none
  | _ => none

def loadEntry (registered : Registered) (entry : Json) : Registered :=
  match registeredOf entry with
  | none => registered
  | some trace => registered.put trace

/-- `raw.get(name, [])` -/
def listField (fields : List (String × Json)) (name : String) : Json :=
  (fieldOf fields name).getD (.arr [])

def typeName : Json → String
  | .null => "NoneType"
  | .bool _ => "bool"
  | .int _ => "int"
  | .float _ => "float"
  | .str _ => "str"
  | .arr _ => "list"
  | .obj _ => "dict"

variable (python : Python)

/-- `str(item)` -/
def itemText : Json → String
  | .str text => text
  | item => python.str item

/-- What `_load_state_file` reads, and what it raises. -/
def loadStateFile (stateFile : Option Text) :
    (Registered × Finset String) × Option ViewerError :=
  match stateFile.bind loads with
  | none => ((Keyed.empty, ∅), none)
  | some (.obj fields) =>
      match listField fields "registered", listField fields "suppressed_ids" with
      | .arr registered, .arr suppressed =>
          ((registered.foldl loadEntry Keyed.empty,
            (suppressed.map (itemText python)).toFinset), none)
      | _, _ => ((Keyed.empty, ∅), none)
  | some value =>
      ((Keyed.empty, ∅),
        some (.attribute
          ("'" ++ typeName value ++ "' object has no attribute 'get'")))

/-! ## Descriptors -/

variable (disk : Disk)

/-- The descriptor of a registered trace. -/
def described (registered : RuntimeRegisteredTrace) (entry : Entry) :
    TraceDescriptor where
  id := registered.id
  label := registered.label
  path := disk.resolve registered.path
  sizeBytes := entry.sizeBytes
  mtime := entry.mtime

/-- One turn of the loop in `_rebuild_effective_descriptors`. -/
def addRegistered (held : Descriptors) (registered : RuntimeRegisteredTrace) :
    Descriptors :=
  match disk.entry registered.path with
  | none => held
  | some entry =>
      if (held.get registered.id).any (registered.path ≠ ·.path) then held
      else held.put (described disk registered entry)

/-- The descriptors of the configuration that are not suppressed. -/
def configured (registry : RuntimeTraceRegistry) : Descriptors :=
  Keyed.ofList (registry.discovered.items.filter (·.id ∉ registry.suppressedIds))

/-- `_rebuild_effective_descriptors` -/
def rebuildEffectiveDescriptors (registry : RuntimeTraceRegistry) :
    RuntimeTraceRegistry :=
  { registry with
    descriptors :=
      (registry.registeredById.items.foldl (addRegistered disk)
        registry.configured).sort }

/-- A change is saved, and the descriptors are built anew. -/
def settle (registry : RuntimeTraceRegistry) : RuntimeTraceRegistry :=
  registry.saveStateFile.rebuildEffectiveDescriptors disk

variable (config : DiscoveryConfig)

/-- `reload` -/
def reload (registry : RuntimeTraceRegistry) :
    Except ViewerError Unit × RuntimeTraceRegistry :=
  match discoverTraces python disk config with
  | .error error => (.error error, registry)
  | .ok discovered =>
      let ((registeredById, suppressedIds), failure) :=
        loadStateFile python registry.stateFile
      let loaded := { registry with discovered, registeredById, suppressedIds }
      match failure with
      | some error => (.error error, loaded)
      | none => (.ok (), loaded.rebuildEffectiveDescriptors disk)

/-- `__init__` -/
def start (stateFile : Option Text) : Except ViewerError Unit × RuntimeTraceRegistry :=
  reload python disk config (initial stateFile)

/-! ## Registration -/

/-- What is done for a path. -/
inductive Operation where
  | unsuppress (descriptor : TraceDescriptor)
  | register (registered : RuntimeRegisteredTrace)
deriving DecidableEq

namespace Operation

def id : Operation → String
  | unsuppress descriptor => descriptor.id
  | register registered => registered.id

def path : Operation → String
  | unsuppress descriptor => descriptor.path
  | register registered => registered.path

end Operation

/-- What has been planned for the paths so far. -/
structure Plan where
  inputPaths : List String
  canonicalPaths : List String
  operations : List Operation
deriving DecidableEq

/-- `_resolve_input_path` -/
def resolveInputPath (rawPath : String) : Except ViewerError String :=
  let resolved := disk.resolve (config.rooted rawPath)
  if (disk.entry resolved).isSome then .ok resolved
  else .error (.notFound s!"trace file not found: {resolved}")

/-- `_default_label_for_path` -/
def defaultLabelForPath (path : String) : String :=
  String.ofList ((attemptParent path).getD (stem ((pathNames path).headD [])))

/-- `_build_runtime_trace_id` -/
def buildRuntimeTraceId (path label : String) : String :=
  "runtime-" ++ String.ofList (slugify python true label.toList) ++ "-" ++
    python.digest (disk.resolve path)

/-- A label that has been given and is not empty. -/
def givenLabel (labelsByPath : List (String × String)) (path : String) :
    Option String :=
  (labelsByPath.lookup path).filter (· ≠ "")

/-- `_label_for_path` -/
def labelForPath (labelsByPath : List (String × String))
    (rawPath inputPath : String) : String :=
  ((givenLabel labelsByPath rawPath).or (givenLabel labelsByPath inputPath)).getD
    (defaultLabelForPath inputPath)

/-- What is done for a canonical path. -/
def operationFor (registry : RuntimeTraceRegistry)
    (labelsByPath : List (String × String)) (rawPath inputPath canonicalPath : String) :
    Except ViewerError Operation :=
  match registry.discovered.items.find? (·.path = disk.resolve canonicalPath) with
  | some descriptor =>
      if descriptor.id ∈ registry.suppressedIds then .ok (.unsuppress descriptor)
      else .error (.conflict s!"trace already tracked from config: {canonicalPath}")
  | none =>
      if registry.registeredById.items.any (·.path = disk.resolve canonicalPath) then
        .error (.conflict s!"trace already registered at runtime: {canonicalPath}")
      else
        let label := labelForPath labelsByPath rawPath inputPath
        let id := buildRuntimeTraceId python disk canonicalPath label
        if (registry.getDescriptor id).isSome ∨
            (registry.registeredById.get id).isSome then
          .error (.conflict s!"trace id already exists: {id}")
        else .ok (.register ⟨id, label, canonicalPath, "path_register"⟩)

/-- One turn of the first loop of `register_paths`. -/
def planPath (registry : RuntimeTraceRegistry)
    (labelsByPath : List (String × String)) (plan : Plan) (rawPath : String) :
    Except ViewerError Plan := do
  let inputPath ← resolveInputPath disk config rawPath
  if inputPath ∈ plan.inputPaths then
    .error (.conflict s!"duplicate registration request for path: {inputPath}")
  else
    let canonicalPath ← ensureCanonicalTracePath python disk inputPath
    if canonicalPath ∈ plan.canonicalPaths then
      .error (.conflict
        s!"duplicate registration request for canonical path: {canonicalPath}")
    else
      let operation ←
        operationFor python disk registry labelsByPath rawPath inputPath canonicalPath
      return {
        inputPaths := plan.inputPaths ++ [inputPath]
        canonicalPaths := plan.canonicalPaths ++ [canonicalPath]
        operations := plan.operations ++ [operation] }

/-- One turn of the second loop of `register_paths`. -/
def perform (registry : RuntimeTraceRegistry) (operation : Operation) :
    RuntimeTraceRegistry :=
  { registry with
    registeredById :=
      match operation with
      | .unsuppress _ => registry.registeredById
      | .register registered => registry.registeredById.put registered
    suppressedIds := registry.suppressedIds.erase operation.id }

/-- `self.descriptors_by_id[trace_id]` -/
def lookup (registry : RuntimeTraceRegistry) (id : String) :
    Except ViewerError TraceDescriptor :=
  match registry.getDescriptor id with
  | some descriptor => .ok descriptor
  | none => .error (.key id)

/-- `register_paths` -/
def registerPaths (registry : RuntimeTraceRegistry) (paths : List String)
    (labelsByPath : List (String × String)) :
    Except ViewerError (List TraceDescriptor) × RuntimeTraceRegistry :=
  if paths = [] then (.ok [], registry)
  else
    match paths.foldlM (planPath python disk config registry labelsByPath)
        ⟨[], [], []⟩ with
    | .error error => (.error error, registry)
    | .ok plan =>
        let settled := (plan.operations.foldl perform registry).settle disk
        ((plan.operations.map Operation.id).mapM settled.lookup, settled)

/-- `register_uploaded_descriptor` -/
def registerUploadedDescriptor (registry : RuntimeTraceRegistry)
    (descriptor : TraceDescriptor) : Except ViewerError Unit × RuntimeTraceRegistry :=
  let registered : RuntimeRegisteredTrace :=
    ⟨descriptor.id, descriptor.label, descriptor.path, "upload"⟩
  if (registry.registeredById.get descriptor.id).any (·.path ≠ descriptor.path) then
    (.error (.conflict
      ("runtime descriptor id already mapped to another path: " ++ descriptor.id)),
        registry)
  else (.ok (), (registry.perform (.register registered)).settle disk)

/-- What `unregister_ids` has done so far. -/
structure Unregistration where
  registry : RuntimeTraceRegistry
  removedIds : List String
  missingIds : List String

/-- One turn of the loop of `unregister_ids`. -/
def unregisterId (done : Unregistration) (id : String) : Unregistration :=
  let registry := done.registry
  if (registry.registeredById.get id).isSome then
    { done with
      registry :=
        { registry with
          registeredById := registry.registeredById.remove id
          suppressedIds := registry.suppressedIds.erase id }
      removedIds := done.removedIds ++ [id] }
  else if (registry.discovered.get id).isSome ∨ id ∈ registry.suppressedIds then
    { done with
      registry :=
        { registry with suppressedIds := insert id registry.suppressedIds }
      removedIds := done.removedIds ++ [id] }
  else { done with missingIds := done.missingIds ++ [id] }

/-- `unregister_ids` -/
def unregisterIds (registry : RuntimeTraceRegistry) (ids : List String) :
    (List String × List String) × RuntimeTraceRegistry :=
  let done := ids.foldl unregisterId ⟨registry, [], []⟩
  ((done.removedIds, done.missingIds), done.registry.settle disk)

end RuntimeTraceRegistry

end AgentSchedBench.Gantt
