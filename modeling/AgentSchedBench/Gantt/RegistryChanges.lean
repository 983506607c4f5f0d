import AgentSchedBench.Gantt.RegistryRuns
import AgentSchedBench.Library.Loops

/-!
# Registering and unregistering

A request to register traces is carried out as a whole or not at all.  What it
has registered is served, and unregistering it takes back what it has changed.
-/

namespace AgentSchedBench.Gantt

open AgentSchedBench.Trace (Text)

namespace RuntimeTraceRegistry

/-! ## Unregistering -/

section Unregister

variable {registry : RuntimeTraceRegistry} {id other : String}

/-- What has been done to the entries of an id. -/
structure Untracked (registry : RuntimeTraceRegistry) (ids : List String)
    (after : RuntimeTraceRegistry) (id : String) : Prop where
  registered :
    after.registeredById.get id =
      if id ∈ ids then none else registry.registeredById.get id
  suppressed :
    id ∈ after.suppressedIds ↔
      if id ∈ ids then
        if (registry.registeredById.get id).isSome then
          ids.count id ≠ 1 ∧ (registry.discovered.get id).isSome
        else (registry.discovered.get id).isSome ∨ id ∈ registry.suppressedIds
      else id ∈ registry.suppressedIds

theorem discovered_unregisterId (done : Unregistration) (id : String) :
    (unregisterId done id).registry.discovered = done.registry.discovered := by
  rw [unregisterId]
  split_ifs <;> rfl

theorem discovered_foldl (ids : List String) (done : Unregistration) :
    (ids.foldl unregisterId done).registry.discovered = done.registry.discovered := by
  induction ids generalizing done with
  | nil => rfl
  | cons id ids induction =>
      rw [List.foldl_cons, induction, discovered_unregisterId]

/-- A turn is about its own id only. -/
theorem registered_unregisterId (done : Unregistration) (id other : String) :
    (unregisterId done id).registry.registeredById.get other =
      if other = id then none else done.registry.registeredById.get other := by
  rw [unregisterId]
  split
  · exact Keyed.get_remove _ _ _
  · next absent =>
      rw [Option.not_isSome_iff_eq_none] at absent
      split <;>
        · split
          · next same => rw [same]; exact absent
          · rfl

theorem suppressed_unregisterId (done : Unregistration) (id other : String) :
    other ∈ (unregisterId done id).registry.suppressedIds ↔
      if other = id then
        (done.registry.registeredById.get id).isSome = false ∧
          ((done.registry.discovered.get id).isSome ∨
            id ∈ done.registry.suppressedIds)
      else other ∈ done.registry.suppressedIds := by
  rw [unregisterId]
  by_cases same : other = id
  · subst same
    split_ifs <;> simp_all
  · split_ifs <;> simp [same]

theorem untracked_foldl (ids : List String) (done : Unregistration) (id : String) :
    Untracked done.registry ids (ids.foldl unregisterId done).registry id := by
  induction ids generalizing done with
  | nil => constructor <;> simp
  | cons first ids induction =>
      have later := induction (unregisterId done first)
      constructor
      · rw [List.foldl_cons, later.registered, registered_unregisterId]
        by_cases same : id = first <;> simp [same]
      · rw [List.foldl_cons, later.suppressed, registered_unregisterId,
          suppressed_unregisterId, discovered_unregisterId]
        by_cases same : id = first
        · subst same
          by_cases later : id ∈ ids
          · have again : ids.count id ≠ 0 := (List.count_pos_iff.mpr later).ne'
            cases (done.registry.registeredById.get id).isSome <;>
              simp [later, again]
          · have once : ids.count id = 0 := List.count_eq_zero_of_not_mem later
            cases (done.registry.registeredById.get id).isSome <;>
              simp [later, once]
        · simp [same, Ne.symm same]

/-- What is known of an id: that it is registered, of the configuration or
suppressed. -/
def Known (registry : RuntimeTraceRegistry) (id : String) : Prop :=
  (registry.registeredById.get id).isSome ∨ (registry.discovered.get id).isSome ∨
    id ∈ registry.suppressedIds

/-- Ids that are removed once are all removed if they are known. -/
theorem reported_foldl (ids : List String) (done : Unregistration)
    (distinct : ids.Nodup) (known : ∀ id ∈ ids, done.registry.Known id) :
    (ids.foldl unregisterId done).removedIds = done.removedIds ++ ids ∧
      (ids.foldl unregisterId done).missingIds = done.missingIds := by
  induction ids generalizing done with
  | nil => exact ⟨(List.append_nil _).symm, rfl⟩
  | cons first ids induction =>
      obtain ⟨firstNot, distinct⟩ := List.nodup_cons.mp distinct
      obtain ⟨firstKnown, known⟩ := List.forall_mem_cons.mp known
      have othersKnown : ∀ id ∈ ids, (unregisterId done first).registry.Known id := by
        intro id member
        have differs : id ≠ first := fun same => firstNot (same ▸ member)
        rw [Known, registered_unregisterId, suppressed_unregisterId,
          discovered_unregisterId, if_neg differs, if_neg differs]
        exact known id member
      obtain ⟨removed, missing⟩ := induction (unregisterId done first) distinct
        othersKnown
      rw [List.foldl_cons, removed, missing, unregisterId]
      split
      · exact ⟨List.append_assoc _ _ _, rfl⟩
      · next notRegistered =>
          rw [if_pos (firstKnown.resolve_left notRegistered)]
          exact ⟨List.append_assoc _ _ _, rfl⟩

/-- After a request to unregister, a trace is served for an id of it only where
the id had been registered, is named once, and is also one of the configuration,
whose trace is then served in its place.  Nothing else changes. -/
theorem getDescriptor_unregisterIds (registry : RuntimeTraceRegistry) (disk : Disk)
    (ids : List String) (id : String) :
    (registry.unregisterIds disk ids).2.getDescriptor id =
      if id ∈ ids then
        if (registry.registeredById.get id).isSome ∧ ids.count id = 1 then
          registry.discovered.get id
        else none
      else (registry.rebuildEffectiveDescriptors disk).getDescriptor id := by
  have untracked := untracked_foldl ids ⟨registry, [], []⟩ id
  have discovered := discovered_foldl ids ⟨registry, [], []⟩
  have isBuilt :
      (registry.unregisterIds disk ids).2.getDescriptor id =
        ((ids.foldl unregisterId ⟨registry, [], []⟩).registry
          |>.rebuildEffectiveDescriptors disk).getDescriptor id := rfl
  rw [isBuilt, getDescriptor_rebuild, getDescriptor_rebuild, untracked.registered,
    configuredFor, configuredFor, discovered]
  simp only [untracked.suppressed]
  by_cases member : id ∈ ids
  · simp only [if_pos member, Option.map_none, Option.getD_none]
    cases isRegistered : (registry.registeredById.get id).isSome <;>
      cases isDiscovered : registry.discovered.get id <;>
        simp
  · simp only [if_neg member]

end Unregister

/-! ## Planning -/

section Planning

variable {python : Python} {disk : Disk} {config : DiscoveryConfig}
  {registry : RuntimeTraceRegistry} {labelsByPath : List (String × String)}

/-- What is known of an operation that has been planned. -/
inductive Planned (python : Python) (disk : Disk) (registry : RuntimeTraceRegistry) :
    Operation → Prop
  | unsuppress {descriptor : TraceDescriptor}
      (isConfigured : registry.discovered.get descriptor.id = some descriptor)
      (isSuppressed : descriptor.id ∈ registry.suppressedIds) :
      Planned python disk registry (.unsuppress descriptor)
  | register {registered : RuntimeRegisteredTrace}
      (isId : registered.id =
        buildRuntimeTraceId python disk registered.path registered.label)
      (isResolved : disk.resolve registered.path = registered.path)
      (isThere : (disk.entry registered.path).isSome)
      (notServed : registry.getDescriptor registered.id = none)
      (notRegistered : registry.registeredById.get registered.id = none) :
      Planned python disk registry (.register registered)

theorem planned_operationFor {rawPath inputPath canonicalPath : String}
    {operation : Operation} (isResolved : disk.resolve canonicalPath = canonicalPath)
    (isThere : (disk.entry canonicalPath).isSome)
    (isOk : operationFor python disk registry labelsByPath rawPath inputPath
      canonicalPath = .ok operation) :
    Planned python disk registry operation ∧ operation.path = canonicalPath := by
  rw [operationFor] at isOk
  split at isOk
  · next descriptor isFound =>
      have isPath : descriptor.path = disk.resolve canonicalPath := by
        simpa using List.find?_some isFound
      split at isOk
      · next isSuppressed =>
          cases isOk
          exact ⟨.unsuppress (Keyed.get_of_mem (List.mem_of_find?_eq_some isFound))
            isSuppressed, isPath.trans isResolved⟩
      · cases isOk
  · split at isOk
    · cases isOk
    · dsimp only at isOk
      split at isOk
      · cases isOk
      · next isNew =>
          cases isOk
          rw [not_or, Option.not_isSome_iff_eq_none, Option.not_isSome_iff_eq_none]
            at isNew
          exact ⟨.register rfl isResolved isThere isNew.1 isNew.2, rfl⟩

/-- A turn plans one operation, for a path that is not in the plan. -/
theorem planPath_cases {rawPath : String} {plan next : Plan}
    (isOk : planPath python disk config registry labelsByPath plan rawPath = .ok next) :
    ∃ operation, Planned python disk registry operation ∧
      operation.path = disk.resolve (config.rooted rawPath) ∧
      operation.path ∉ plan.canonicalPaths ∧
      next.operations = plan.operations ++ [operation] ∧
      next.canonicalPaths = plan.canonicalPaths ++ [operation.path] := by
  obtain ⟨inputPath, isInput, isOk⟩ := Loops.bind_eq_ok.mp isOk
  rw [resolveInputPath] at isInput
  split at isInput
  · next isThere =>
      cases isInput
      split at isOk
      · cases isOk
      · obtain ⟨canonicalPath, isCanonical, isOk⟩ := Loops.bind_eq_ok.mp isOk
        obtain ⟨_, -, isCanonical⟩ := Loops.bind_eq_ok.mp isCanonical
        cases isCanonical
        split at isOk
        · cases isOk
        · next isNew =>
            obtain ⟨operation, isOperation, isOk⟩ := Loops.bind_eq_ok.mp isOk
            cases isOk
            rw [disk.resolve_resolve] at isOperation isNew
            obtain ⟨planned, isPath⟩ :=
              planned_operationFor (disk.resolve_resolve _) isThere isOperation
            refine ⟨operation, planned, isPath, isPath ▸ isNew, rfl, ?_⟩
            rw [isPath, disk.resolve_resolve]
  · cases isInput

/-- The plan for the paths so far. -/
structure PlannedFor (python : Python) (disk : Disk) (config : DiscoveryConfig)
    (registry : RuntimeTraceRegistry) (paths : List String) (plan : Plan) : Prop where
  isPaths : plan.operations.map Operation.path =
    paths.map fun path => disk.resolve (config.rooted path)
  canonical : plan.canonicalPaths = plan.operations.map Operation.path
  distinct : (plan.operations.map Operation.path).Nodup
  planned : ∀ operation ∈ plan.operations, Planned python disk registry operation

theorem plannedFor_nil : PlannedFor python disk config registry [] ⟨[], [], []⟩ where
  isPaths := rfl
  canonical := rfl
  distinct := List.nodup_nil
  planned := by
    rintro _ ⟨⟩

theorem PlannedFor.turn {paths : List String} {rawPath : String} {plan next : Plan}
    (planned : PlannedFor python disk config registry paths plan)
    (isOk : planPath python disk config registry labelsByPath plan rawPath = .ok next) :
    PlannedFor python disk config registry (paths ++ [rawPath]) next := by
  obtain ⟨operation, isPlanned, isPath, isNew, isOperations, isCanonical⟩ :=
    planPath_cases isOk
  have operations : next.operations.map Operation.path =
      plan.operations.map Operation.path ++ [operation.path] := by
    rw [isOperations, List.map_append, List.map_singleton]
  constructor
  · rw [operations, planned.isPaths, List.map_append, List.map_singleton, isPath]
  · rw [isCanonical, operations, planned.canonical]
  · rw [planned.canonical] at isNew
    rw [operations, ← List.concat_eq_append]
    exact planned.distinct.concat isNew
  · intro other member
    rw [isOperations, List.mem_append, List.mem_singleton] at member
    rcases member with member | rfl
    · exact planned.planned other member
    · exact isPlanned

theorem plannedFor_foldlM {paths : List String} {plan : Plan}
    (isOk : paths.foldlM (planPath python disk config registry labelsByPath) ⟨[], [], []⟩ =
      .ok plan) : PlannedFor python disk config registry paths plan :=
  Loops.foldlM_invariant (planPath python disk config registry labelsByPath)
    (PlannedFor python disk config registry) plannedFor_nil
    (fun _ _ _ _ _ planned isOk => planned.turn isOk) isOk

end Planning

/-! ## Performing -/

section Performing

variable {registry : RuntimeTraceRegistry}

theorem discovered_perform (operations : List Operation) :
    (operations.foldl perform registry).discovered = registry.discovered := by
  induction operations generalizing registry with
  | nil => rfl
  | cons operation operations induction => exact induction

theorem suppressed_perform (operations : List Operation) (id : String) :
    id ∈ (operations.foldl perform registry).suppressedIds ↔
      id ∈ registry.suppressedIds ∧ id ∉ operations.map Operation.id := by
  induction operations generalizing registry with
  | nil => simp
  | cons operation operations induction =>
      have isErased : (registry.perform operation).suppressedIds =
          registry.suppressedIds.erase operation.id := rfl
      rw [List.foldl_cons, induction, isErased, Finset.mem_erase, List.map_cons,
        List.mem_cons]
      tauto

/-- A trace is registered for an id if an operation has registered one, and else
what had been registered is kept. -/
theorem registered_perform (registry : RuntimeTraceRegistry)
    (operations : List Operation) (id : String) :
    (∃ registered, .register registered ∈ operations ∧ registered.id = id ∧
      (operations.foldl perform registry).registeredById.get id = some registered) ∨
    (∀ registered, .register registered ∈ operations → registered.id ≠ id) ∧
      (operations.foldl perform registry).registeredById.get id =
        registry.registeredById.get id := by
  induction operations using List.reverseRecOn with
  | nil =>
      refine Or.inr ⟨?_, rfl⟩
      rintro registered ⟨⟩
  | append_singleton operations operation induction =>
      rw [List.foldl_append, List.foldl_cons, List.foldl_nil]
      cases operation with
      | unsuppress descriptor =>
          have isMember (registered : RuntimeRegisteredTrace) :
              .register registered ∈ operations ++ [.unsuppress descriptor] ↔
                .register registered ∈ operations := by simp
          simp only [isMember]
          exact induction
      | register registered =>
          have isGet : (perform (operations.foldl perform registry)
              (.register registered)).registeredById.get id =
                if id = registered.id then some registered
                else (operations.foldl perform registry).registeredById.get id :=
            Keyed.get_put _ _ _
          rw [isGet]
          by_cases same : id = registered.id
          · exact Or.inl ⟨registered, by simp, same.symm, if_pos same⟩
          · rw [if_neg same]
            rcases induction with ⟨earlier, member, isId, isHeld⟩ | ⟨absent, isHeld⟩
            · exact Or.inl ⟨earlier, List.mem_append_left _ member, isId, isHeld⟩
            · refine Or.inr ⟨fun other member => ?_, isHeld⟩
              rw [List.mem_append, List.mem_singleton] at member
              rcases member with member | isLast
              · exact absent other member
              · cases isLast
                exact Ne.symm same

variable {python : Python} {disk : Disk}

theorem isSome_overlay {configured : Option TraceDescriptor}
    {registered : RuntimeRegisteredTrace}
    (isThere : configured.isSome ∨ (disk.entry registered.path).isSome) :
    (overlay disk configured registered).isSome := by
  rw [overlay]
  cases isEntry : disk.entry registered.path with
  | none =>
      rw [isEntry] at isThere
      exact isThere.resolve_right (by simp)
  | some entry =>
      dsimp only
      split
      · next differs =>
          cases configured with
          | none => cases differs
          | some configured => rfl
      · rfl

/-- What is configured and not suppressed is served. -/
theorem isSome_getDescriptor {id : String}
    (isConfigured : (registry.configuredFor id).isSome) :
    ((registry.rebuildEffectiveDescriptors disk).getDescriptor id).isSome := by
  rw [getDescriptor_rebuild]
  cases registry.registeredById.get id with
  | none => exact isConfigured
  | some registered =>
      rw [Option.map_some, Option.getD_some]
      exact isSome_overlay (Or.inl isConfigured)

theorem getDescriptor_settle (id : String) :
    (registry.settle disk).getDescriptor id =
      (registry.rebuildEffectiveDescriptors disk).getDescriptor id := rfl

/-- Whatever has been planned is found when it has been performed. -/
theorem lookup_performed {operations : List Operation}
    (planned : ∀ operation ∈ operations, Planned python disk registry operation)
    {operation : Operation} (member : operation ∈ operations) :
    ∃ descriptor, ((operations.foldl perform registry).settle disk).lookup
      operation.id = .ok descriptor := by
  have isServed : (((operations.foldl perform registry).settle disk).getDescriptor
      operation.id).isSome := by
    rw [getDescriptor_settle]
    cases planned operation member with
    | @unsuppress descriptor isConfigured isSuppressed =>
        apply isSome_getDescriptor
        have shown : descriptor.id ∉
            (operations.foldl perform registry).suppressedIds := by
          rw [suppressed_perform]
          exact fun hidden => hidden.2 (List.mem_map_of_mem (f := Operation.id) member)
        rw [Operation.id, configuredFor, if_neg shown, discovered_perform,
          isConfigured]
        rfl
    | @register registered isId isResolved isThere notServed notRegistered =>
        rw [Operation.id, getDescriptor_rebuild]
        rcases registered_perform registry operations registered.id with
          ⟨later, isLater, -, isHeld⟩ | ⟨absent, -⟩
        · rw [isHeld, Option.map_some, Option.getD_some]
          cases planned _ isLater with
          | register _ _ isThere _ _ => exact isSome_overlay (Or.inr isThere)
        · exact absurd rfl (absent registered member)
  obtain ⟨descriptor, isFound⟩ := Option.isSome_iff_exists.mp isServed
  exact ⟨descriptor, by rw [lookup, isFound]⟩

end Performing

/-! ## Suppressed traces -/

section Apart

variable {python : Python} {registry : RuntimeTraceRegistry}

/-- What is suppressed is not registered. -/
def Apart (registry : RuntimeTraceRegistry) : Prop :=
  ∀ id ∈ registry.suppressedIds, registry.registeredById.get id = none

theorem apart_perform (apart : registry.Apart) (operation : Operation) :
    (registry.perform operation).Apart := by
  intro id isSuppressed
  obtain ⟨differs, wasSuppressed⟩ := Finset.mem_erase.mp isSuppressed
  cases operation with
  | unsuppress descriptor => exact apart id wasSuppressed
  | register registered =>
      have differs : id ≠ registered.id := differs
      exact (Keyed.get_put registry.registeredById registered id).trans
        ((if_neg differs).trans (apart id wasSuppressed))

theorem apart_foldl (apart : registry.Apart) (operations : List Operation) :
    (operations.foldl perform registry).Apart := by
  induction operations generalizing registry with
  | nil => exact apart
  | cons operation operations induction => exact induction (apart_perform apart operation)

theorem apart_unregisterIds (apart : registry.Apart) (disk : Disk) (ids : List String) :
    (registry.unregisterIds disk ids).2.Apart := by
  intro id isSuppressed
  have untracked := untracked_foldl ids ⟨registry, [], []⟩ id
  refine Eq.trans untracked.registered ?_
  have isSuppressed := untracked.suppressed.mp isSuppressed
  split
  · rfl
  · next notMember =>
      rw [if_neg notMember] at isSuppressed
      exact apart id isSuppressed

/-- What has been loaded is held. -/
theorem apart_reload {disk : Disk} {config : DiscoveryConfig} {discovered : Descriptors}
    {starting : RuntimeTraceRegistry} (saved : registry.Saved python)
    (apart : registry.Apart) (isFile : starting.stateFile = registry.stateFile)
    (isFound : discoverTraces python disk config = .ok discovered) :
    (starting.reload python disk config).2.Apart := by
  rw [reload_of_discovered isFound, isFile]
  dsimp only
  rw [saved.loads]
  intro id isSuppressed
  refine (saved.registered id).trans (apart id ?_)
  exact saved.suppressed ▸ isSuppressed

theorem apart_answer (saved : registry.Saved python) (apart : registry.Apart)
    (disk : Disk) (config : DiscoveryConfig) (request : Request) :
    (registry.answer python disk config request).Apart := by
  cases request with
  | registerPaths paths labelsByPath =>
      show (registry.registerPaths python disk config paths labelsByPath).2.Apart
      rw [registerPaths]
      split
      · exact apart
      · split
        · exact apart
        · exact apart_foldl apart _
  | registerUploaded descriptor =>
      show (registry.registerUploadedDescriptor disk descriptor).2.Apart
      rw [registerUploadedDescriptor]
      split
      · exact apart
      · exact apart_perform apart _
  | unregister ids => exact apart_unregisterIds apart disk ids
  | reload =>
      show (registry.reload python disk config).2.Apart
      cases isFound : discoverTraces python disk config with
      | error error =>
          rw [reload, isFound]
          exact apart
      | ok discovered => exact apart_reload saved apart rfl isFound

theorem Reached.apart (reached : Reached python none registry) : registry.Apart := by
  induction reached with
  | start disk config isOk =>
      obtain ⟨⟨discovered, isFound⟩, -⟩ := start_ok isOk
      rw [RuntimeTraceRegistry.start, reload_of_discovered isFound]
      rintro id ⟨⟩
  | answer disk config request reached induction =>
      exact apart_answer reached.saved induction disk config request
  | restart disk config reached isOk induction =>
      obtain ⟨⟨discovered, isFound⟩, -⟩ := start_ok isOk
      exact apart_reload reached.saved induction rfl isFound

end Apart

/-! ## Registering -/

section Registering

variable {python : Python} {disk : Disk} {config : DiscoveryConfig}
  {registry : RuntimeTraceRegistry} {labelsByPath : List (String × String)}

def runtimePrefix : Text := "runtime-".toList

theorem prefix_buildRuntimeTraceId (path label : String) :
    runtimePrefix <+: (buildRuntimeTraceId python disk path label).toList := by
  rw [buildRuntimeTraceId, String.toList_append, String.toList_append,
    String.toList_append, List.append_assoc, List.append_assoc]
  exact List.prefix_append _ _

/-- The digest is at the end of an id. -/
theorem exists_front_of_id (python : Python) (disk : Disk) (path label : String) :
    ∃ front, (buildRuntimeTraceId python disk path label).toList =
      front ++ (python.digest (disk.resolve path)).toList :=
  ⟨_, String.toList_append⟩

theorem digest_of_id {path other label otherLabel : String}
    (same : buildRuntimeTraceId python disk path label =
      buildRuntimeTraceId python disk other otherLabel) :
    python.digest (disk.resolve path) = python.digest (disk.resolve other) := by
  obtain ⟨front, isId⟩ := exists_front_of_id python disk path label
  obtain ⟨otherFront, isOther⟩ :=
    exists_front_of_id python disk other otherLabel
  rw [same, isOther] at isId
  apply String.toList_injective
  refine (List.append_inj_right' isId ?_).symm
  rw [String.length_toList, String.length_toList, python.digest_length,
    python.digest_length]

/-- A suppressed trace has no id that is given at run time, and the paths of a
request have different digests. -/
structure NoClash (python : Python) (disk : Disk) (config : DiscoveryConfig)
    (registry : RuntimeTraceRegistry) (paths : List String) : Prop where
  suppressed : ∀ id ∈ registry.suppressedIds, ¬ runtimePrefix <+: id.toList
  digests :
    ∀ path ∈ paths.map fun path => disk.resolve (config.rooted path),
      ∀ other ∈ paths.map fun path => disk.resolve (config.rooted path),
        python.digest path = python.digest other → path = other

theorem path_of_id {paths : List String} {plan : Plan}
    (noClash : NoClash python disk config registry paths)
    (planned : PlannedFor python disk config registry paths plan)
    {operation other : Operation} (member : operation ∈ plan.operations)
    (otherMember : other ∈ plan.operations) (same : operation.id = other.id) :
    operation.path = other.path := by
  cases planned.planned operation member with
  | unsuppress isConfigured isSuppressed =>
      cases planned.planned other otherMember with
      | unsuppress otherConfigured otherSuppressed =>
          rw [Operation.id, Operation.id] at same
          rw [same, otherConfigured] at isConfigured
          exact congrArg TraceDescriptor.path (Option.some.inj isConfigured).symm
      | register isId isResolved isThere notServed notRegistered =>
          rw [Operation.id, Operation.id, isId] at same
          refine absurd ?_ (noClash.suppressed _ isSuppressed)
          rw [same]
          exact prefix_buildRuntimeTraceId _ _
  | register isId isResolved isThere notServed notRegistered =>
      cases planned.planned other otherMember with
      | unsuppress otherConfigured otherSuppressed =>
          rw [Operation.id, Operation.id, isId] at same
          refine absurd ?_ (noClash.suppressed _ otherSuppressed)
          rw [← same]
          exact prefix_buildRuntimeTraceId _ _
      | register otherId otherResolved otherThere otherServed otherRegistered =>
          rw [Operation.id, Operation.id, isId, otherId] at same
          have same := digest_of_id same
          rw [isResolved, otherResolved] at same
          have isPath (operation : Operation) (member : operation ∈ plan.operations) :
              operation.path ∈ paths.map fun path =>
                disk.resolve (config.rooted path) :=
            planned.isPaths ▸ List.mem_map_of_mem member
          exact noClash.digests _ (isPath _ member) _ (isPath _ otherMember) same

theorem nodup_ids {paths : List String} {plan : Plan}
    (noClash : NoClash python disk config registry paths)
    (planned : PlannedFor python disk config registry paths plan) :
    (plan.operations.map Operation.id).Nodup :=
  List.Nodup.map_on
    (fun _ member _ otherMember same =>
      List.inj_on_of_nodup_map planned.distinct member otherMember
        (path_of_id noClash planned member otherMember same))
    planned.distinct.of_map

section Performed

variable {paths : List String} {plan : Plan}

/-- Each operation is the only one with its id. -/
theorem registered_of_planned (noClash : NoClash python disk config registry paths)
    (planned : PlannedFor python disk config registry paths plan)
    (apart : registry.Apart) {operation : Operation}
    (member : operation ∈ plan.operations) :
    registry.registeredById.get operation.id = none ∧
      ((∃ registered, operation = .register registered ∧
        (plan.operations.foldl perform registry).registeredById.get operation.id =
          some registered) ∨
      (∃ descriptor, operation = .unsuppress descriptor ∧
        (plan.operations.foldl perform registry).registeredById.get operation.id =
          none)) := by
  have distinct := nodup_ids noClash planned
  have isOnly {other : Operation} (otherMember : other ∈ plan.operations)
      (same : other.id = operation.id) : other = operation :=
    List.inj_on_of_nodup_map distinct otherMember member same
  have notHeld : registry.registeredById.get operation.id = none := by
    cases planned.planned operation member with
    | unsuppress isConfigured isSuppressed => exact apart _ isSuppressed
    | register isId isResolved isThere notServed notRegistered => exact notRegistered
  refine ⟨notHeld, ?_⟩
  rcases registered_perform registry plan.operations operation.id with
    ⟨registered, isMember, isId, isHeld⟩ | ⟨absent, isHeld⟩
  · exact Or.inl ⟨registered, (isOnly isMember isId).symm, isHeld⟩
  · cases operation with
    | unsuppress descriptor => exact Or.inr ⟨descriptor, rfl, isHeld.trans notHeld⟩
    | register registered => exact absurd rfl (absent registered member)

/-- An id that is not served and not suppressed is none of the configuration. -/
theorem Built.discovered_eq_none {id : String} (built : registry.Built)
    (notServed : registry.getDescriptor id = none)
    (notSuppressed : id ∉ registry.suppressedIds) :
    registry.discovered.get id = none := by
  obtain ⟨builtOn, isBuilt⟩ := built
  rw [getDescriptor, isBuilt] at notServed
  by_contra isConfigured
  have isServed : ((registry.rebuildEffectiveDescriptors builtOn).getDescriptor
      id).isSome := by
    apply isSome_getDescriptor
    rw [configuredFor, if_neg notSuppressed]
    exact Option.isSome_iff_ne_none.mpr isConfigured
  rw [getDescriptor, notServed] at isServed
  cases isServed

/-- What has been performed is served from the path it is for. -/
theorem served_of_planned (noClash : NoClash python disk config registry paths)
    (planned : PlannedFor python disk config registry paths plan)
    (apart : registry.Apart) (built : registry.Built) {operation : Operation}
    (member : operation ∈ plan.operations) :
    ∃ descriptor, ((plan.operations.foldl perform registry).settle disk).getDescriptor
      operation.id = some descriptor ∧ descriptor.id = operation.id ∧
        descriptor.path = operation.path := by
  rw [getDescriptor_settle, getDescriptor_rebuild]
  have shown : operation.id ∉ (plan.operations.foldl perform registry).suppressedIds := by
    rw [suppressed_perform]
    exact fun hidden => hidden.2 (List.mem_map_of_mem member)
  rw [configuredFor, if_neg shown, discovered_perform]
  rcases (registered_of_planned noClash planned apart member).2 with
    ⟨registered, rfl, isHeld⟩ | ⟨descriptor, rfl, notHeld⟩
  · cases planned.planned _ member with
    | register isId isResolved isThere notServed notRegistered =>
        have notSuppressed : registered.id ∉ registry.suppressedIds := fun hidden =>
          noClash.suppressed _ hidden (isId ▸ prefix_buildRuntimeTraceId _ _)
        obtain ⟨entry, isEntry⟩ := Option.isSome_iff_exists.mp isThere
        have isOverlay : overlay disk none registered =
            some (described disk registered entry) := by
          rw [overlay, isEntry]
          rfl
        rw [isHeld, Operation.id, built.discovered_eq_none notServed notSuppressed,
          Option.map_some, Option.getD_some, isOverlay]
        exact ⟨_, rfl, rfl, isResolved⟩
  · cases planned.planned _ member with
    | unsuppress isConfigured isSuppressed =>
        rw [notHeld, Operation.id, isConfigured]
        exact ⟨descriptor, rfl, rfl, rfl⟩

/-- Unregistering what has been performed takes it back. -/
theorem agree_of_planned (noClash : NoClash python disk config registry paths)
    (planned : PlannedFor python disk config registry paths plan)
    (apart : registry.Apart) :
    let performed := (plan.operations.foldl perform registry).settle disk
    let undone := performed.unregisterIds disk (plan.operations.map Operation.id)
    undone.1 = (plan.operations.map Operation.id, []) ∧ undone.2.Agree registry := by
  intro performed undone
  have distinct := nodup_ids noClash planned
  have isDiscovered : performed.discovered = registry.discovered :=
    discovered_perform plan.operations
  have known : ∀ id ∈ plan.operations.map Operation.id, performed.Known id := by
    intro id member
    obtain ⟨operation, isPlanned, rfl⟩ := List.mem_map.mp member
    rcases (registered_of_planned noClash planned apart isPlanned).2 with
      ⟨registered, rfl, isHeld⟩ | ⟨descriptor, rfl, -⟩
    · exact Or.inl (Option.isSome_iff_exists.mpr ⟨registered, isHeld⟩)
    · cases planned.planned _ isPlanned with
      | unsuppress isConfigured isSuppressed =>
          refine Or.inr (Or.inl ?_)
          rw [isDiscovered, Operation.id, isConfigured]
          rfl
  obtain ⟨removed, missing⟩ := reported_foldl _ ⟨performed, [], []⟩ distinct known
  refine ⟨Prod.ext removed missing, ⟨?_, fun id => ?_, ?_⟩⟩
  · exact (discovered_foldl _ ⟨performed, [], []⟩).trans isDiscovered
  · have untracked := untracked_foldl (plan.operations.map Operation.id)
      ⟨performed, [], []⟩ id
    refine untracked.registered.trans ?_
    split
    · next member =>
        obtain ⟨operation, isPlanned, rfl⟩ := List.mem_map.mp member
        exact (registered_of_planned noClash planned apart isPlanned).1.symm
    · next absent =>
        rcases registered_perform registry plan.operations id with
          ⟨registered, member, rfl, -⟩ | ⟨-, isHeld⟩
        · exact absurd (List.mem_map_of_mem (f := Operation.id) member) absent
        · exact isHeld
  · ext id
    have untracked := untracked_foldl (plan.operations.map Operation.id)
      ⟨performed, [], []⟩ id
    refine untracked.suppressed.trans ?_
    split
    · next member =>
        rw [List.count_eq_one_of_mem distinct member, isDiscovered]
        obtain ⟨operation, isPlanned, rfl⟩ := List.mem_map.mp member
        rcases (registered_of_planned noClash planned apart isPlanned).2 with
          ⟨registered, rfl, isHeld⟩ | ⟨descriptor, rfl, notHeld⟩
        · cases planned.planned _ isPlanned with
          | register isId isResolved isThere notServed notRegistered =>
              have notSuppressed : registered.id ∉ registry.suppressedIds :=
                fun hidden =>
                  noClash.suppressed _ hidden (isId ▸ prefix_buildRuntimeTraceId _ _)
              have isRegistered :
                  (performed.registeredById.get registered.id).isSome :=
                Option.isSome_iff_exists.mpr ⟨registered, isHeld⟩
              rw [Operation.id, if_pos isRegistered]
              exact iff_of_false (fun once => once.1 rfl) notSuppressed
        · cases planned.planned _ isPlanned with
          | unsuppress isConfigured isSuppressed =>
              have notRegistered :
                  ¬ (performed.registeredById.get descriptor.id).isSome := by
                rw [Option.not_isSome_iff_eq_none]
                exact notHeld
              rw [Operation.id, if_neg notRegistered, isConfigured]
              exact iff_of_true (Or.inl rfl) isSuppressed
    · next absent =>
        exact (suppressed_perform plan.operations id).trans (and_iff_left absent)

end Performed

/-- The answer to a request that has been planned. -/
theorem registerPaths_of_plan {paths : List String} {plan : Plan} (nonempty : paths ≠ [])
    (isPlan : paths.foldlM (planPath python disk config registry labelsByPath)
      ⟨[], [], []⟩ = .ok plan) :
    registry.registerPaths python disk config paths labelsByPath =
      ((plan.operations.map Operation.id).mapM
        ((plan.operations.foldl perform registry).settle disk).lookup,
          (plan.operations.foldl perform registry).settle disk) := by
  rw [registerPaths, if_neg nonempty, isPlan]

/-- A request that fails changes nothing. -/
theorem registerPaths_error {paths : List String} {error : ViewerError}
    (failed : (registry.registerPaths python disk config paths labelsByPath).1 =
      .error error) :
    (registry.registerPaths python disk config paths labelsByPath).2 = registry := by
  by_cases nonempty : paths = []
  · rw [registerPaths, if_pos nonempty]
  cases isPlan : paths.foldlM (planPath python disk config registry labelsByPath)
      ⟨[], [], []⟩ with
  | error raised => rw [registerPaths, if_neg nonempty, isPlan]
  | ok plan =>
      rw [registerPaths_of_plan nonempty isPlan] at failed
      obtain ⟨id, member, raised⟩ := Loops.mapM_error failed
      obtain ⟨operation, isPlanned, rfl⟩ := List.mem_map.mp member
      obtain ⟨descriptor, isFound⟩ :=
        lookup_performed (plannedFor_foldlM isPlan).planned isPlanned
      rw [isFound] at raised
      cases raised

theorem lookup_eq_ok {id : String} {descriptor : TraceDescriptor} :
    registry.lookup id = .ok descriptor ↔
      registry.getDescriptor id = some descriptor := by
  rw [lookup]
  cases registry.getDescriptor id <;> simp

/-- What is found for operations is for their ids and paths. -/
theorem found_for_operations {operations : List Operation}
    {served : List TraceDescriptor}
    (found : List.Forall₂ (fun operation descriptor =>
      registry.getDescriptor operation.id = some descriptor) operations served)
    (isServed : ∀ operation ∈ operations, ∃ descriptor,
      registry.getDescriptor operation.id = some descriptor ∧
        descriptor.id = operation.id ∧ descriptor.path = operation.path) :
    served.map TraceDescriptor.id = operations.map Operation.id ∧
      served.map TraceDescriptor.path = operations.map Operation.path ∧
      ∀ descriptor ∈ served,
        registry.getDescriptor descriptor.id = some descriptor := by
  induction found with
  | nil =>
      refine ⟨rfl, rfl, ?_⟩
      rintro _ ⟨⟩
  | @cons operation descriptor operations served isFound found induction =>
      obtain ⟨firstServed, othersServed⟩ := List.forall_mem_cons.mp isServed
      obtain ⟨areIds, arePaths, areFound⟩ := induction othersServed
      obtain ⟨other, isOther, isId, isPath⟩ := firstServed
      rw [isFound] at isOther
      cases isOther
      refine ⟨?_, ?_, List.forall_mem_cons.mpr ⟨isId ▸ isFound, areFound⟩⟩
      · rw [List.map_cons, List.map_cons, isId, areIds]
      · rw [List.map_cons, List.map_cons, isPath, arePaths]

/-- A request that succeeds serves the traces of its paths. -/
theorem registerPaths_ok {paths : List String} {served : List TraceDescriptor}
    (noClash : NoClash python disk config registry paths) (apart : registry.Apart)
    (built : registry.Built)
    (isOk : (registry.registerPaths python disk config paths labelsByPath).1 =
      .ok served) :
    let registered := (registry.registerPaths python disk config paths labelsByPath).2
    let undone := registered.unregisterIds disk (served.map TraceDescriptor.id)
    served.map TraceDescriptor.path =
        paths.map (fun path => disk.resolve (config.rooted path)) ∧
      (∀ descriptor ∈ served,
        registered.getDescriptor descriptor.id = some descriptor) ∧
      undone.1 = (served.map TraceDescriptor.id, []) ∧ undone.2.Agree registry := by
  by_cases nonempty : paths = []
  · subst nonempty
    rw [registerPaths, if_pos rfl] at isOk ⊢
    cases isOk
    refine ⟨rfl, ?_, rfl, rfl, fun _ => rfl, rfl⟩
    rintro _ ⟨⟩
  cases isPlan : paths.foldlM (planPath python disk config registry labelsByPath)
      ⟨[], [], []⟩ with
  | error raised =>
      rw [registerPaths, if_neg nonempty, isPlan] at isOk
      cases isOk
  | ok plan =>
      have planned := plannedFor_foldlM isPlan
      rw [registerPaths_of_plan nonempty isPlan] at isOk ⊢
      have found := (Loops.mapM_eq_ok _ _ _).mp isOk
      rw [List.forall₂_map_left_iff] at found
      simp only [lookup_eq_ok] at found
      obtain ⟨areIds, arePaths, areFound⟩ := found_for_operations found
        fun _ member => served_of_planned noClash planned apart built member
      dsimp only
      rw [areIds]
      exact ⟨arePaths.trans planned.isPaths, areFound,
        agree_of_planned noClash planned apart⟩

set_option maxRecDepth 10000 in
theorem registered_trace :
    ((emptyViewer.registerPaths plainPython traceDisk noGroups [tracePath] []).1.toOption.map
      fun served => served.map TraceDescriptor.id) =
        some ["runtime-runs-0123456789"] := by
  decide +kernel

theorem noClash_trace :
    NoClash plainPython traceDisk noGroups emptyViewer [tracePath] where
  suppressed := by
    rintro id ⟨⟩
  digests path member other otherMember _ := by
    rw [List.map_singleton, List.mem_singleton] at member otherMember
    rw [member, otherMember]

end Registering

end RuntimeTraceRegistry

end AgentSchedBench.Gantt
