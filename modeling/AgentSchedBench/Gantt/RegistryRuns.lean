import AgentSchedBench.Gantt.RuntimeRegistry

/-!
# Runs of the registry

After any requests the state file holds what the registry holds, so a viewer
that is started anew serves what a reload serves.  Traces that have been
registered are served until they are unregistered, which takes back what the
registration has changed.
-/

namespace AgentSchedBench.Gantt

open AgentSchedBench.Trace (Text)
open JsonText (WellFormed WellFormedItems dumpsIndented loads wellFormed_obj)

namespace RuntimeTraceRegistry

/-! ## What is saved -/

section Saved

theorem wellFormed_str (text : String) : WellFormed (.str text) := by
  simp [WellFormed]

theorem wellFormed_asdict (registered : RuntimeRegisteredTrace) :
    WellFormed (asdict registered) := by
  rw [asdict, wellFormed_obj]
  refine ⟨by simp, fun field member => ?_⟩
  simp only [List.mem_cons, List.not_mem_nil, or_false] at member
  rcases member with rfl | rfl | rfl | rfl | rfl <;> exact wellFormed_str _

theorem wellFormedItems_iff {items : List Json} :
    WellFormedItems items ↔ ∀ item ∈ items, WellFormed item := by
  induction items with
  | nil => simp [WellFormedItems]
  | cons item items induction => simp [WellFormedItems, induction]

theorem wellFormed_payload (registered : Registered) (suppressed : Finset String) :
    WellFormed (payload registered suppressed) := by
  rw [payload, wellFormed_obj]
  refine ⟨by simp, fun field member => ?_⟩
  simp only [List.mem_cons, List.not_mem_nil, or_false] at member
  rcases member with rfl | rfl <;> rw [WellFormed, wellFormedItems_iff] <;>
    intro item member <;> obtain ⟨source, -, rfl⟩ := List.mem_map.mp member
  · exact wellFormed_asdict source
  · exact wellFormed_str source

theorem foldl_loadEntry (traces : List RuntimeRegisteredTrace) (held : Registered) :
    (traces.map asdict).foldl loadEntry held = traces.foldl Keyed.put held := by
  rw [List.foldl_map]
  rfl

variable (python : Python)

theorem loadStateFile_payload (registered : Registered) (suppressed : Finset String) :
    loadStateFile python (some (dumpsIndented 2 (payload registered suppressed))) =
      ((Keyed.ofList registered.sorted, suppressed), none) := by
  rw [loadStateFile, Option.bind_some,
    JsonText.loads_dumpsIndented (wellFormed_payload registered suppressed)]
  show (((registered.sorted.map asdict).foldl loadEntry Keyed.empty,
    (((suppressed.sort (· ≤ ·)).map Json.str).map (itemText python)).toFinset), none) =
      _
  rw [foldl_loadEntry, List.map_map]
  have plain : itemText python ∘ Json.str = id := rfl
  rw [plain, List.map_id, Finset.sort_toFinset]
  rfl

/-- The state file holds what the registry holds. -/
structure Saved (registry : RuntimeTraceRegistry) : Prop where
  registered :
    (loadStateFile python registry.stateFile).1.1.Same registry.registeredById
  suppressed : (loadStateFile python registry.stateFile).1.2 = registry.suppressedIds
  loads : (loadStateFile python registry.stateFile).2 = none

/-- What has been saved is loaded again. -/
theorem loadStateFile_save (registry : RuntimeTraceRegistry) :
    ∃ registered : Registered, registered.Same registry.registeredById ∧
      loadStateFile python registry.saveStateFile.stateFile =
        ((registered, registry.suppressedIds), none) := by
  rw [saveStateFile]
  split
  · next nothing =>
      refine ⟨Keyed.empty, fun id => ?_, by rw [nothing.2]; rfl⟩
      rw [Keyed.get, Keyed.get, nothing.1]
      rfl
  · exact ⟨_, Keyed.ofList_sorted _, loadStateFile_payload python _ _⟩

end Saved

/-! ## What is served -/

section Served

variable (disk : Disk)

/-- What is served for an id that is also registered. -/
def overlay (configured : Option TraceDescriptor)
    (registered : RuntimeRegisteredTrace) : Option TraceDescriptor :=
  match disk.entry registered.path with
  | none => configured
  | some entry =>
      if configured.any (registered.path ≠ ·.path) then configured
      else some (described disk registered entry)

theorem get_addRegistered (held : Descriptors) (registered : RuntimeRegisteredTrace)
    (id : String) :
    (addRegistered disk held registered).get id =
      if id = registered.id then overlay disk (held.get id) registered
      else held.get id := by
  rw [addRegistered, overlay]
  cases disk.entry registered.path with
  | none => exact (ite_self _).symm
  | some entry =>
      dsimp only
      by_cases same : id = registered.id
      · rw [if_pos same, same]
        split
        · rfl
        · exact (Keyed.get_put _ _ _).trans (if_pos rfl)
      · rw [if_neg same]
        split
        · rfl
        · exact (Keyed.get_put _ _ _).trans (if_neg same)

/-- What the configuration gives for an id. -/
def configuredFor (registry : RuntimeTraceRegistry) (id : String) :
    Option TraceDescriptor :=
  if id ∈ registry.suppressedIds then none else registry.discovered.get id

theorem get_configured (registry : RuntimeTraceRegistry) (id : String) :
    registry.configured.get id = registry.configuredFor id := by
  have distinct := registry.discovered.distinct.sublist
    ((List.filter_sublist (p := (·.id ∉ registry.suppressedIds))).map
      TraceDescriptor.id)
  ext descriptor
  rw [configured, Keyed.get_ofList distinct, Keyed.find?_eq_some distinct,
    List.mem_filter, decide_eq_true_iff, configuredFor]
  split
  · next isSuppressed =>
      constructor
      · rintro ⟨⟨-, notSuppressed⟩, rfl⟩
        exact absurd isSuppressed notSuppressed
      · rintro ⟨⟩
  · next notSuppressed =>
      rw [Keyed.get_eq_some]
      constructor
      · rintro ⟨⟨member, -⟩, isId⟩
        exact ⟨member, isId⟩
      · rintro ⟨member, rfl⟩
        exact ⟨⟨member, notSuppressed⟩, rfl⟩

/-- What the registry serves for an id. -/
theorem getDescriptor_rebuild (registry : RuntimeTraceRegistry) (id : String) :
    (registry.rebuildEffectiveDescriptors disk).getDescriptor id =
      ((registry.registeredById.get id).map
        (overlay disk (registry.configuredFor id))).getD
          (registry.configuredFor id) := by
  rw [getDescriptor, rebuildEffectiveDescriptors, Keyed.get_sort,
    Keyed.get_foldl_own (overlay disk) (get_addRegistered disk)
      registry.registeredById.distinct, get_configured]
  rfl

/-- The registries hold the same, in whichever order. -/
structure Agree (registry other : RuntimeTraceRegistry) : Prop where
  discovered : registry.discovered = other.discovered
  registered : registry.registeredById.Same other.registeredById
  suppressed : registry.suppressedIds = other.suppressedIds

/-- What is served depends on what is held only. -/
theorem Agree.descriptors {registry other : RuntimeTraceRegistry}
    (agree : registry.Agree other) :
    (registry.rebuildEffectiveDescriptors disk).descriptors =
      (other.rebuildEffectiveDescriptors disk).descriptors := by
  have same (id : String) :
      (registry.rebuildEffectiveDescriptors disk).getDescriptor id =
        (other.rebuildEffectiveDescriptors disk).getDescriptor id := by
    rw [getDescriptor_rebuild, getDescriptor_rebuild, configuredFor, configuredFor,
      agree.discovered, agree.suppressed, agree.registered id]
  refine Keyed.Same.sort_eq fun id => ?_
  simpa only [getDescriptor, rebuildEffectiveDescriptors, Keyed.get_sort] using same id

end Served

/-! ## Runs -/

/-- What the viewer is asked to do with the registry. -/
inductive Request where
  | registerPaths (paths : List String) (labelsByPath : List (String × String))
  | registerUploaded (descriptor : TraceDescriptor)
  | unregister (ids : List String)
  | reload

section Runs

variable (python : Python)

/-- The registry after a request. -/
def answer (disk : Disk) (config : DiscoveryConfig) (registry : RuntimeTraceRegistry) :
    Request → RuntimeTraceRegistry
  | .registerPaths paths labelsByPath =>
      (registerPaths python disk config registry paths labelsByPath).2
  | .registerUploaded descriptor => (registerUploadedDescriptor disk registry descriptor).2
  | .unregister ids => (unregisterIds disk registry ids).2
  | .reload => (reload python disk config registry).2

/-- The registries of viewers, the first of which found a state file. -/
inductive Reached (stateFile : Option Text) : RuntimeTraceRegistry → Prop
  | start (disk : Disk) (config : DiscoveryConfig)
      (isOk : (start python disk config stateFile).1 = .ok ()) :
      Reached stateFile (start python disk config stateFile).2
  | answer {registry : RuntimeTraceRegistry} (disk : Disk) (config : DiscoveryConfig)
      (request : Request) (reached : Reached stateFile registry) :
      Reached stateFile (registry.answer python disk config request)
  | restart {registry : RuntimeTraceRegistry} (disk : Disk) (config : DiscoveryConfig)
      (reached : Reached stateFile registry)
      (isOk : (RuntimeTraceRegistry.start python disk config registry.stateFile).1 =
        .ok ()) :
      Reached stateFile
        (RuntimeTraceRegistry.start python disk config registry.stateFile).2

variable {python} {registry : RuntimeTraceRegistry}

theorem saved_settle (disk : Disk) (registry : RuntimeTraceRegistry) :
    (registry.settle disk).Saved python := by
  obtain ⟨registered, same, isLoaded⟩ := loadStateFile_save python registry
  have isFile : (registry.settle disk).stateFile = registry.saveStateFile.stateFile :=
    rfl
  constructor <;> rw [isFile, isLoaded]
  · exact same
  · rfl

/-- A reload that discovers traces takes over what the state file holds. -/
theorem reload_of_discovered {disk : Disk} {config : DiscoveryConfig}
    {discovered : Descriptors}
    (isFound : discoverTraces python disk config = .ok discovered)
    (registry : RuntimeTraceRegistry) :
    let held := loadStateFile python registry.stateFile
    let loaded : RuntimeTraceRegistry :=
      { registry with
        discovered, registeredById := held.1.1, suppressedIds := held.1.2 }
    registry.reload python disk config =
      (held.2.elim (.ok ()) .error,
        held.2.elim (loaded.rebuildEffectiveDescriptors disk) fun _ => loaded) := by
  rw [reload, isFound]
  obtain ⟨⟨registered, suppressed⟩, failure⟩ :=
    loadStateFile python registry.stateFile
  cases failure <;> rfl

theorem saved_of_discovered {disk : Disk} {config : DiscoveryConfig}
    {discovered : Descriptors}
    (isFound : discoverTraces python disk config = .ok discovered)
    (loads : (loadStateFile python registry.stateFile).2 = none) :
    (registry.reload python disk config).2.Saved python := by
  rw [reload_of_discovered isFound]
  dsimp only
  rw [loads]
  exact ⟨fun _ => rfl, rfl, loads⟩

theorem saved_reload (saved : registry.Saved python) (disk : Disk)
    (config : DiscoveryConfig) : (registry.reload python disk config).2.Saved python := by
  cases isFound : discoverTraces python disk config with
  | error error =>
      rw [reload, isFound]
      exact saved
  | ok discovered => exact saved_of_discovered isFound saved.loads

theorem saved_registerPaths (saved : registry.Saved python) (disk : Disk)
    (config : DiscoveryConfig) (paths : List String)
    (labelsByPath : List (String × String)) :
    (registry.registerPaths python disk config paths labelsByPath).2.Saved python := by
  rw [registerPaths]
  split
  · exact saved
  · split
    · exact saved
    · exact saved_settle disk _

theorem saved_registerUploaded (saved : registry.Saved python) (disk : Disk)
    (descriptor : TraceDescriptor) :
    (registry.registerUploadedDescriptor disk descriptor).2.Saved python := by
  rw [registerUploadedDescriptor]
  split
  · exact saved
  · exact saved_settle disk _

theorem saved_answer (saved : registry.Saved python) (disk : Disk)
    (config : DiscoveryConfig) (request : Request) :
    (registry.answer python disk config request).Saved python := by
  cases request with
  | registerPaths paths labelsByPath =>
      exact saved_registerPaths saved disk config paths labelsByPath
  | registerUploaded descriptor => exact saved_registerUploaded saved disk descriptor
  | unregister ids => exact saved_settle disk _
  | reload => exact saved_reload saved disk config

/-- What is served has been built from what is held. -/
def Built (registry : RuntimeTraceRegistry) : Prop :=
  ∃ disk, registry.descriptors = (registry.rebuildEffectiveDescriptors disk).descriptors

theorem built_settle (disk : Disk) (registry : RuntimeTraceRegistry) :
    (registry.settle disk).Built :=
  ⟨disk, rfl⟩

theorem built_of_discovered {disk : Disk} {config : DiscoveryConfig}
    {discovered : Descriptors}
    (isFound : discoverTraces python disk config = .ok discovered)
    (loads : (loadStateFile python registry.stateFile).2 = none) :
    (registry.reload python disk config).2.Built := by
  rw [reload_of_discovered isFound]
  dsimp only
  rw [loads]
  exact ⟨disk, rfl⟩

theorem built_answer (saved : registry.Saved python) (built : registry.Built)
    (disk : Disk) (config : DiscoveryConfig) (request : Request) :
    (registry.answer python disk config request).Built := by
  cases request with
  | registerPaths paths labelsByPath =>
      show (registry.registerPaths python disk config paths labelsByPath).2.Built
      rw [registerPaths]
      split
      · exact built
      · split
        · exact built
        · exact built_settle disk _
  | registerUploaded descriptor =>
      show (registry.registerUploadedDescriptor disk descriptor).2.Built
      rw [registerUploadedDescriptor]
      split
      · exact built
      · exact built_settle disk _
  | unregister ids => exact built_settle disk _
  | reload =>
      show (registry.reload python disk config).2.Built
      cases isFound : discoverTraces python disk config with
      | error error =>
          rw [reload, isFound]
          exact built
      | ok discovered => exact built_of_discovered isFound saved.loads

/-- A viewer that starts has discovered traces, and its state file loads. -/
theorem start_ok {disk : Disk} {config : DiscoveryConfig} {stateFile : Option Text}
    (isOk : (start python disk config stateFile).1 = .ok ()) :
    (∃ discovered, discoverTraces python disk config = .ok discovered) ∧
      (loadStateFile python stateFile).2 = none := by
  rw [start] at isOk
  cases isFound : discoverTraces python disk config with
  | error error =>
      rw [reload, isFound] at isOk
      cases isOk
  | ok discovered =>
      refine ⟨⟨discovered, rfl⟩, ?_⟩
      rw [reload_of_discovered isFound] at isOk
      dsimp only at isOk
      cases loads : (loadStateFile python (initial stateFile).stateFile).2 with
      | none => exact loads
      | some error =>
          rw [loads] at isOk
          cases isOk

variable {stateFile : Option Text}

theorem saved_start {disk : Disk} {config : DiscoveryConfig}
    (isOk : (start python disk config stateFile).1 = .ok ()) :
    (start python disk config stateFile).2.Saved python := by
  obtain ⟨⟨discovered, isFound⟩, loads⟩ := start_ok isOk
  exact saved_of_discovered isFound loads

theorem built_start {disk : Disk} {config : DiscoveryConfig}
    (isOk : (start python disk config stateFile).1 = .ok ()) :
    (start python disk config stateFile).2.Built := by
  obtain ⟨⟨discovered, isFound⟩, loads⟩ := start_ok isOk
  exact built_of_discovered isFound loads

/-- After any requests the state file holds what the registry holds. -/
theorem Reached.saved (reached : Reached python stateFile registry) :
    registry.Saved python := by
  induction reached with
  | start disk config isOk => exact saved_start isOk
  | answer disk config request reached induction =>
      exact saved_answer induction disk config request
  | restart disk config reached isOk induction => exact saved_start isOk

theorem Reached.built (reached : Reached python stateFile registry) :
    registry.Built := by
  induction reached with
  | start disk config isOk => exact built_start isOk
  | answer disk config request reached induction =>
      exact built_answer reached.saved induction disk config request
  | restart disk config reached isOk induction => exact built_start isOk

/-- The descriptors are in the order of their ids. -/
theorem Built.pairwise (built : registry.Built) :
    registry.listDescriptors.Pairwise fun earlier later => earlier.id < later.id := by
  obtain ⟨disk, isBuilt⟩ := built
  rw [listDescriptors, isBuilt]
  exact Keyed.pairwise_sorted _

/-- What the registry would hold with other traces of its configuration. -/
def withDiscovered (registry : RuntimeTraceRegistry) (discovered : Descriptors) :
    RuntimeTraceRegistry :=
  { registry with discovered }

def plainPython : Python where
  lower text := text
  digest _ := "0123456789"
  repr _ := "None"
  str _ := ""
  decodeMessage _ := ""
  digest_length _ := rfl

def metadataLine : String :=
  "\x7b\"type\": \"trace_metadata\", \"trace_format_version\": 5\x7d\n"

def tracePath : String := "/runs/attempt_1/trace.jsonl"

def traceDisk : Disk where
  resolve path := path
  entry path :=
    if path = tracePath then some ⟨54, 0, some metadataLine.toList⟩ else none
  glob _ := []
  resolve_resolve _ := rfl

def noGroups : DiscoveryConfig := ⟨"/repo", []⟩

def emptyViewer : RuntimeTraceRegistry := (start plainPython traceDisk noGroups none).2

def traceRequest : Request := .registerPaths [tracePath] []

theorem reached_emptyViewer : Reached plainPython none emptyViewer :=
  .start traceDisk noGroups rfl

end Runs

end RuntimeTraceRegistry

end AgentSchedBench.Gantt
