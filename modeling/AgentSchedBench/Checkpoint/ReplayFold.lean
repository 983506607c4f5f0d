import AgentSchedBench.Checkpoint.Restore
import AgentSchedBench.Library.Outcomes

/-!
# The fold of the replay loop

The replay keeps the source's entries in `folded_source_entries`: at every
checkpoint boundary it folds the checkpoint of that action into them.  The
same entries are recomputed from all actions of the session when a restore is
verified.

The loop folds only where it reaches a boundary: the parent's tool calls, with
a container, up to which nothing was raised.  The recomputation folds every
action that carries a checkpoint.  `FoldStatus` follows where the two are in
step.
-/

namespace AgentSchedBench.Checkpoint

/-! ## Checkpoints of recorded actions -/

/-- The value of `checkpoint_after`; absent and falsy fields are `none`. -/
inductive CheckpointAfterValue where
  | absent
  | text (path : String)
  | fields (path root kind : Option String) (incremental : Option Bool)
  | other
deriving DecidableEq, Repr

/-- What the fold reads of a spec. -/
structure SourceSpec where
  path : String
  incremental : Bool
deriving DecidableEq, Repr

/-- `_checkpoint_after_spec`, with `_checkpoint_spec_is_incremental`. -/
def sourceCheckpointSpec : CheckpointAfterValue → Option SourceSpec
  | .absent => none
  | .other => none
  | .text path => if path = "" then none else some ⟨path, false⟩
  | .fields none _ _ _ => none
  | .fields (some path) root kind incremental =>
      if path = "" ∨ root.getD "/testbed" ≠ "/testbed" then none
      else
        let isIncrementalKind := kind = some "cas_manifest_incremental"
        some ⟨path, incremental.getD isIncrementalKind || isIncrementalKind⟩

/--
What a checkpoint path leads to: nothing, an archive or none that can be
read, JSON that cannot be read or is not an object, an object without an
`entries` object, or a manifest.
-/
inductive SourceFile where
  | missing
  | archive (entries : Option CasManifestEntries)
  | unreadable
  | notObject
  | entriesMissing
  | manifest (manifest : Manifest)

abbrev SourceFiles := String → SourceFile

inductive SourceFoldError where
  | notObject
  | entry (failure : FoldError)
deriving DecidableEq, Repr

/-- `_fold_source_checkpoint_entries`. -/
def foldSourceCheckpoint
    (files : SourceFiles) (prevFolded : CasManifestEntries)
    (spec : SourceSpec) : Except SourceFoldError CasManifestEntries :=
  match files spec.path with
  | .missing => .ok prevFolded
  | .archive entries => .ok (entries.getD prevFolded)
  | .unreadable => .ok prevFolded
  | .notObject => .error .notObject
  | .entriesMissing => .ok prevFolded
  | .manifest manifest =>
      (foldSourceCheckpointEntries spec.incremental manifest
        prevFolded).mapError .entry

/-! ## Actions and their replay -/

inductive ActionType where
  | llmCall
  | toolExec
  | unsupported
deriving DecidableEq, Repr

/-- The fields of a loaded action that the loop's fold depends on. -/
structure RecordedAction where
  agentId : String
  actionType : ActionType
  toolName : Option String
  checkpointAfter : CheckpointAfterValue
deriving DecidableEq, Repr

/-- `_is_subagent_lane_action`. -/
def isSubagentLaneAction
    (sourceAgentId : String) (action : RecordedAction) : Bool :=
  (sourceAgentId ++ "/").toList.isPrefixOf action.agentId.toList

/-- What a forced sync leaves in `prev_cas_manifest`. -/
inductive SyncOutcome where
  | unchanged
  | reset
  | verified (entries : CasManifestEntries)

/--
How the replay of an action goes: does something raise before the boundary,
what does the capture there give, and what does a forced sync after it do.
-/
structure ReplayOutcome where
  raises : Bool
  captured : Option CasManifestEntries
  sync : SyncOutcome

/-- The session: its container, its source and the checkpoint files. -/
structure ReplaySession where
  sourceAgentId : String
  hasContainer : Bool
  files : SourceFiles

/-- The variables of the loop, and what it has compared so far. -/
structure ReplayState where
  prevCasManifest : Option CasManifestEntries
  foldedSourceEntries : CasManifestEntries
  compared : List (Nat × CasManifestEntries)

def ReplayState.start : ReplayState where
  prevCasManifest := none
  foldedSourceEntries := Dict.empty
  compared := []

/-- The forced sync after a mismatch. -/
def ReplayState.sync (state : ReplayState) : SyncOutcome → ReplayState
  | .unchanged => state
  | .reset => { state with prevCasManifest := none }
  | .verified entries => { state with prevCasManifest := some entries }

/-- The comparison at the boundary of a checkpoint. -/
def ReplayState.boundary
    (session : ReplaySession) (index : Nat) (outcome : ReplayOutcome)
    (spec : SourceSpec) (state : ReplayState) :
    Except SourceFoldError ReplayState := do
  let folded ←
    foldSourceCheckpoint session.files state.foldedSourceEntries spec
  match outcome.captured with
  | none => return { state with foldedSourceEntries := folded }
  | some replayEntries =>
      return {
        prevCasManifest := some replayEntries
        foldedSourceEntries := folded
        compared := state.compared ++ [(index, folded)] }

/-- The statements of the loop on a tool call after it was replayed. -/
def ReplayState.toolExec
    (session : ReplaySession) (index : Nat) (action : RecordedAction)
    (outcome : ReplayOutcome) (state : ReplayState) : ReplayState :=
  if session.hasContainer ∧
      isSubagentLaneAction session.sourceAgentId action = false then
    match sourceCheckpointSpec action.checkpointAfter with
    | none => state.sync outcome.sync
    | some spec =>
        match state.boundary session index outcome spec with
        | .ok next => next.sync outcome.sync
        | .error _ => state
  else state

/-- The body of the replay loop. -/
def ReplayState.step
    (session : ReplaySession) (index : Nat)
    (item : RecordedAction × ReplayOutcome) (state : ReplayState) :
    ReplayState :=
  match item.1.actionType with
  | .llmCall => state
  | .unsupported => state
  | .toolExec =>
      if item.1.toolName.getD "" = "" then state
      else if item.2.raises then state
      else state.toolExec session index item.1 item.2

/-- The replay loop from an index on. -/
def replayLoop
    (session : ReplaySession) :
    Nat → ReplayState → List (RecordedAction × ReplayOutcome) → ReplayState
  | _, state, [] => state
  | index, state, item :: rest =>
      replayLoop session (index + 1) (state.step session index item) rest

/-- One action of the recomputation. -/
def foldAction
    (files : SourceFiles) (folded : CasManifestEntries)
    (action : RecordedAction) : Except SourceFoldError CasManifestEntries :=
  match sourceCheckpointSpec action.checkpointAfter with
  | none => .ok folded
  | some spec => foldSourceCheckpoint files folded spec

/-- `_fold_source_checkpoint_entries_through_action`. -/
def foldSourceCheckpointEntriesThroughAction
    (files : SourceFiles) (actions : List RecordedAction)
    (targetIndex : Int) : Except SourceFoldError CasManifestEntries :=
  if targetIndex < 0 then .ok Dict.empty
  else
    (actions.take (targetIndex.toNat + 1)).foldlM (foldAction files)
      Dict.empty

/-- A comparison used the entries that the recomputation has. -/
def FoldAgrees
    (files : SourceFiles) (actions : List RecordedAction)
    (compared : Nat × CasManifestEntries) : Prop :=
  ∃ folded,
    foldSourceCheckpointEntriesThroughAction files actions compared.1 =
      .ok folded ∧
      ∀ path, compared.2.get path = folded.get path

/-! ## Where the folds are in step -/

/-- What a checkpoint does to the entries folded so far. -/
inductive FoldEffect where
  | raises
  | keeps
  | updates
  | replaces
deriving DecidableEq, Repr

def SourceFile.effect (incremental : Bool) : SourceFile → FoldEffect
  | .missing => .keeps
  | .archive none => .keeps
  | .archive (some _) => .replaces
  | .unreadable => .keeps
  | .notObject => .raises
  | .entriesMissing => .keeps
  | .manifest source =>
      match foldSourceCheckpointEntries incremental source Dict.empty with
      | .error _ => .raises
      | .ok _ => if incremental then .updates else .replaces

/-- Does the loop fold the checkpoint of the action? -/
def foldsLive
    (session : ReplaySession) (item : RecordedAction × ReplayOutcome) :
    Bool :=
  item.1.actionType = .toolExec && item.1.toolName.getD "" ≠ "" &&
    !item.2.raises && session.hasContainer &&
      !isSubagentLaneAction session.sourceAgentId item.1

/-- The loop's entries against the recomputed ones. -/
inductive FoldStatus where
  | inStep
  | behind
  | broken
deriving DecidableEq, Repr

/-- What an action makes of the status. -/
def FoldStatus.step
    (session : ReplaySession) (status : FoldStatus)
    (item : RecordedAction × ReplayOutcome) : FoldStatus :=
  match sourceCheckpointSpec item.1.checkpointAfter with
  | none => status
  | some spec =>
      match status, (session.files spec.path).effect spec.incremental with
      | .broken, _ => .broken
      | _, .raises => .broken
      | status, .keeps => status
      | status, .updates => if foldsLive session item then status else .behind
      | _, .replaces => if foldsLive session item then .inStep else .behind

/-- The status after the actions of a list. -/
def foldStatus
    (session : ReplaySession) (items : List (RecordedAction × ReplayOutcome)) :
    FoldStatus :=
  items.foldl (FoldStatus.step session) .inStep

/-- Does the loop compare at the action, if its checkpoint can be folded? -/
def comparesAt
    (session : ReplaySession) (item : RecordedAction × ReplayOutcome) : Bool :=
  foldsLive session item && item.2.captured.isSome &&
    (sourceCheckpointSpec item.1.checkpointAfter).isSome

/-- Every comparison of the replay uses the recomputed entries. -/
def LiveFoldAgrees
    (session : ReplaySession) (items : List (RecordedAction × ReplayOutcome)) :
    Prop :=
  ∀ compared ∈ (replayLoop session 0 ReplayState.start items).compared,
    FoldAgrees session.files (items.map Prod.fst) compared

/-- Wherever the replay can compare, the folds are in step. -/
def FoldsInStep
    (session : ReplaySession) (items : List (RecordedAction × ReplayOutcome)) :
    Prop :=
  ∀ (before after : List (RecordedAction × ReplayOutcome))
    (item : RecordedAction × ReplayOutcome),
      items = before ++ item :: after →
        comparesAt session item = true →
          foldStatus session (before ++ [item]) = .inStep

section Effects

variable {files : SourceFiles} {spec : SourceSpec}

theorem foldSourceCheckpointEntries_eq
    (incremental : Bool) (manifest : Manifest)
    (prevFolded : CasManifestEntries) :
    foldSourceCheckpointEntries incremental manifest prevFolded =
      (foldSourceCheckpointEntries false manifest Dict.empty).map
        fun entries =>
          if incremental then
            (manifest.deletedPaths.filter
              (!checkpointRelpathIsSkipped ·)).foldl Dict.pop
                (prevFolded.update entries)
          else entries := by
  rw [foldSourceCheckpointEntries, foldSourceCheckpointEntries]
  cases
    manifest.entries.keys.foldlM (Dict.collect (foldEntryOf manifest))
      Dict.empty with
  | error failure => rfl
  | ok entries => cases incremental <;> rfl

theorem fold_of_keeps
    (keeps : (files spec.path).effect spec.incremental = .keeps)
    (prevFolded : CasManifestEntries) :
    foldSourceCheckpoint files prevFolded spec = .ok prevFolded := by
  rw [foldSourceCheckpoint]
  cases found : files spec.path with
  | missing => rfl
  | archive entries =>
      cases entries with
      | none => rfl
      | some entries =>
          rw [found] at keeps
          cases keeps
  | unreadable => rfl
  | notObject =>
      rw [found] at keeps
      cases keeps
  | entriesMissing => rfl
  | manifest manifest =>
      rw [found, SourceFile.effect] at keeps
      split at keeps
      · cases keeps
      · split at keeps <;> cases keeps

/-- Whether a manifest can be folded does not depend on what came before. -/
theorem fold_of_updates
    (updates : (files spec.path).effect spec.incremental = .updates)
    (prevFolded : CasManifestEntries) :
    ∃ folded, foldSourceCheckpoint files prevFolded spec = .ok folded := by
  rw [foldSourceCheckpoint]
  cases found : files spec.path with
  | missing => exact ⟨_, rfl⟩
  | archive entries => exact ⟨_, rfl⟩
  | unreadable => exact ⟨_, rfl⟩
  | notObject =>
      rw [found] at updates
      cases updates
  | entriesMissing => exact ⟨_, rfl⟩
  | manifest manifest =>
      rw [found, SourceFile.effect, foldSourceCheckpointEntries_eq]
        at updates
      dsimp only
      rw [foldSourceCheckpointEntries_eq]
      cases full : foldSourceCheckpointEntries false manifest Dict.empty with
      | error failure =>
          rw [full] at updates
          cases updates
      | ok entries => exact ⟨_, rfl⟩

theorem fold_of_replaces
    (replaces : (files spec.path).effect spec.incremental = .replaces) :
    ∃ folded, ∀ prevFolded,
      foldSourceCheckpoint files prevFolded spec = .ok folded := by
  cases found : files spec.path with
  | missing =>
      rw [found] at replaces
      cases replaces
  | archive entries =>
      cases entries with
      | none =>
          rw [found] at replaces
          cases replaces
      | some entries =>
          refine ⟨entries, fun prevFolded => ?_⟩
          rw [foldSourceCheckpoint, found]
          rfl
  | unreadable =>
      rw [found] at replaces
      cases replaces
  | notObject =>
      rw [found] at replaces
      cases replaces
  | entriesMissing =>
      rw [found] at replaces
      cases replaces
  | manifest manifest =>
      rw [found, SourceFile.effect, foldSourceCheckpointEntries_eq]
        at replaces
      cases full : foldSourceCheckpointEntries false manifest Dict.empty with
      | error failure =>
          rw [full] at replaces
          cases replaces
      | ok entries =>
          rw [full] at replaces
          refine ⟨entries, fun prevFolded => ?_⟩
          rw [foldSourceCheckpoint, found]
          dsimp only
          rw [foldSourceCheckpointEntries_eq, full]
          cases incremental : spec.incremental with
          | true =>
              rw [incremental] at replaces
              cases replaces
          | false => rfl

end Effects

section Step

variable {session : ReplaySession} {index : Nat}
  {item : RecordedAction × ReplayOutcome} {state : ReplayState}

/-- A forced sync leaves the fold and the comparisons alone. -/
theorem ReplayState.sync_fold (state : ReplayState) (sync : SyncOutcome) :
    (state.sync sync).foldedSourceEntries = state.foldedSourceEntries ∧
      (state.sync sync).compared = state.compared := by
  cases sync with
  | unchanged => exact ⟨rfl, rfl⟩
  | reset => exact ⟨rfl, rfl⟩
  | verified entries => exact ⟨rfl, rfl⟩

/-- What the body of the loop does to the fold and the comparisons. -/
theorem ReplayState.step_cases
    (session : ReplaySession) (index : Nat)
    (item : RecordedAction × ReplayOutcome) (state : ReplayState) :
    ((foldsLive session item = false ∨
        sourceCheckpointSpec item.1.checkpointAfter = none ∨
        ∃ spec failure,
          sourceCheckpointSpec item.1.checkpointAfter = some spec ∧
            foldSourceCheckpoint session.files state.foldedSourceEntries
              spec = .error failure) ∧
      (state.step session index item).foldedSourceEntries =
        state.foldedSourceEntries ∧
      (state.step session index item).compared = state.compared) ∨
    ∃ spec folded,
      foldsLive session item = true ∧
        sourceCheckpointSpec item.1.checkpointAfter = some spec ∧
        foldSourceCheckpoint session.files state.foldedSourceEntries spec =
          .ok folded ∧
        (state.step session index item).foldedSourceEntries = folded ∧
        (state.step session index item).compared =
          state.compared ++
            if item.2.captured.isSome then [(index, folded)] else [] := by
  by_cases live : foldsLive session item = true
  · have parts := live
    simp only [foldsLive, Bool.and_eq_true, decide_eq_true_eq,
      Bool.not_eq_true'] at parts
    rcases parts with ⟨⟨⟨⟨isTool, named⟩, quiet⟩, container⟩, parent⟩
    have stepped :
        state.step session index item =
          state.toolExec session index item.1 item.2 := by
      rw [ReplayState.step, isTool]
      dsimp only
      rw [if_neg named, quiet]
      rfl
    rw [stepped, ReplayState.toolExec, if_pos ⟨container, parent⟩]
    cases recorded : sourceCheckpointSpec item.1.checkpointAfter with
    | none =>
        have kept := state.sync_fold item.2.sync
        exact Or.inl ⟨Or.inr (Or.inl rfl), kept.1, kept.2⟩
    | some spec =>
        dsimp only
        rw [ReplayState.boundary]
        cases computed :
            foldSourceCheckpoint session.files state.foldedSourceEntries
              spec with
        | error failure =>
            exact Or.inl ⟨Or.inr (Or.inr ⟨spec, failure, rfl, computed⟩),
              rfl, rfl⟩
        | ok folded =>
            apply Or.inr
            refine ⟨spec, folded, live, rfl, computed, ?_⟩
            cases captured : item.2.captured with
            | none =>
                have kept :=
                  ReplayState.sync_fold
                    { state with foldedSourceEntries := folded } item.2.sync
                constructor
                · exact kept.1
                · simpa using kept.2
            | some entries =>
                have kept :=
                  ReplayState.sync_fold
                    { prevCasManifest := some entries
                      foldedSourceEntries := folded
                      compared := state.compared ++ [(index, folded)] }
                    item.2.sync
                constructor
                · exact kept.1
                · simpa using kept.2
  · apply Or.inl
    refine ⟨Or.inl (by simpa using live), ?_⟩
    rw [ReplayState.step]
    cases isTool : item.1.actionType with
    | llmCall => exact ⟨rfl, rfl⟩
    | unsupported => exact ⟨rfl, rfl⟩
    | toolExec =>
        dsimp only
        split
        · exact ⟨rfl, rfl⟩
        · next named =>
            split
            · exact ⟨rfl, rfl⟩
            · next quiet =>
                rw [ReplayState.toolExec, if_neg]
                · exact ⟨rfl, rfl⟩
                · rintro ⟨container, parent⟩
                  apply live
                  simp [foldsLive, isTool, named, quiet, container, parent]

/-- The recomputation over the actions of a list. -/
def recomputed
    (session : ReplaySession) (items : List (RecordedAction × ReplayOutcome)) :
    Except SourceFoldError CasManifestEntries :=
  (items.map Prod.fst).foldlM (foldAction session.files) Dict.empty

theorem recomputed_append
    (items : List (RecordedAction × ReplayOutcome))
    (item : RecordedAction × ReplayOutcome) :
    recomputed session (items ++ [item]) =
      (recomputed session items).bind
        (foldAction session.files · item.1) := by
  rw [recomputed, List.map_append, List.foldlM_append]
  apply congrArg
  funext folded
  rw [List.map_singleton, List.foldlM_cons]
  cases foldAction session.files folded item.1 with
  | error failure => rfl
  | ok next => rfl

/-- After some actions: unless a fold raised, both folds are what they say. -/
def FoldsFollow
    (session : ReplaySession) (done : List (RecordedAction × ReplayOutcome))
    (state : ReplayState) : Prop :=
  foldStatus session done ≠ .broken →
    ∃ folded, recomputed session done = .ok folded ∧
      (foldStatus session done = .inStep →
        state.foldedSourceEntries = folded)

theorem foldStatus_append
    (done : List (RecordedAction × ReplayOutcome)) :
    foldStatus session (done ++ [item]) =
      (foldStatus session done).step session item := by
  rw [foldStatus, List.foldl_append]
  rfl

theorem foldsFollow_start : FoldsFollow session [] ReplayState.start := by
  intro _
  exact ⟨Dict.empty, rfl, fun _ => rfl⟩

/-- A live action whose checkpoint can be folded moves the loop's entries. -/
theorem ReplayState.step_folds
    {spec : SourceSpec} {folded : CasManifestEntries}
    (live : foldsLive session item = true)
    (recorded : sourceCheckpointSpec item.1.checkpointAfter = some spec)
    (computed :
      foldSourceCheckpoint session.files state.foldedSourceEntries spec =
        .ok folded) :
    (state.step session index item).foldedSourceEntries = folded := by
  rcases state.step_cases session index item with
    ⟨idle, _⟩ | ⟨_, _, _, same, again, moved, _⟩
  · rcases idle with dead | absent | ⟨_, _, same, failed⟩
    · rw [live] at dead
      cases dead
    · rw [recorded] at absent
      cases absent
    · rw [recorded] at same
      cases same
      rw [computed] at failed
      cases failed
  · rw [recorded] at same
    cases same
    rw [computed] at again
    cases again
    exact moved

/-- An action that is not folded live leaves the loop's entries alone. -/
theorem ReplayState.step_dead
    (dead : foldsLive session item = false) :
    (state.step session index item).foldedSourceEntries =
      state.foldedSourceEntries := by
  rcases state.step_cases session index item with
    ⟨_, same, _⟩ | ⟨_, _, live, _⟩
  · exact same
  · rw [dead] at live
    cases live

/-- A checkpoint that keeps the entries keeps them in the loop as well. -/
theorem ReplayState.step_keeps
    {spec : SourceSpec}
    (recorded : sourceCheckpointSpec item.1.checkpointAfter = some spec)
    (keeps :
      (session.files spec.path).effect spec.incremental = .keeps) :
    (state.step session index item).foldedSourceEntries =
      state.foldedSourceEntries := by
  cases live : foldsLive session item with
  | false => exact state.step_dead live
  | true => exact state.step_folds live recorded (fold_of_keeps keeps _)

/-- One action keeps the two folds as the status says. -/
theorem FoldsFollow.step
    {done : List (RecordedAction × ReplayOutcome)}
    (follow : FoldsFollow session done state) :
    FoldsFollow session (done ++ [item])
      (state.step session index item) := by
  intro unbroken
  rw [foldStatus_append, FoldStatus.step] at unbroken
  rw [recomputed_append, foldStatus_append, FoldStatus.step]
  cases recorded : sourceCheckpointSpec item.1.checkpointAfter with
  | none =>
      rw [recorded] at unbroken
      rcases follow unbroken with ⟨folded, computed, agree⟩
      refine ⟨folded, ?_, ?_⟩
      · rw [computed]
        change foldAction session.files folded item.1 = .ok folded
        rw [foldAction, recorded]
      · intro inStep
        rw [← agree inStep]
        rcases state.step_cases session index item with
          ⟨_, same, _⟩ | ⟨_, _, _, present, _⟩
        · exact same
        · rw [recorded] at present
          cases present
  | some spec =>
      rw [recorded] at unbroken
      dsimp only at unbroken ⊢
      have before : foldStatus session done ≠ .broken := by
        intro broken
        rw [broken] at unbroken
        exact unbroken rfl
      rcases follow before with ⟨folded, computed, agree⟩
      have folding :
          (recomputed session done).bind
              (foldAction session.files · item.1) =
            foldSourceCheckpoint session.files folded spec := by
        rw [computed]
        change foldAction session.files folded item.1 = _
        rw [foldAction, recorded]
      rw [folding]
      cases effect :
          (session.files spec.path).effect spec.incremental with
      | raises =>
          rw [effect] at unbroken
          cases status : foldStatus session done <;>
            rw [status] at unbroken <;> exact absurd rfl unbroken
      | keeps =>
          refine ⟨folded, fold_of_keeps effect folded, ?_⟩
          intro inStep
          rw [state.step_keeps recorded effect]
          cases status : foldStatus session done with
          | inStep => exact agree status
          | behind =>
              rw [status] at inStep
              cases inStep
          | broken => exact absurd status before
      | updates =>
          rcases fold_of_updates effect folded with ⟨next, updated⟩
          refine ⟨next, updated, ?_⟩
          intro inStep
          cases status : foldStatus session done with
          | inStep =>
              rw [status] at inStep
              dsimp only at inStep
              split at inStep
              · next live =>
                  rw [← agree status] at updated
                  exact state.step_folds live recorded updated
              · cases inStep
          | behind =>
              rw [status] at inStep
              dsimp only at inStep
              split at inStep <;> cases inStep
          | broken => exact absurd status before
      | replaces =>
          rcases fold_of_replaces effect with ⟨next, replaced⟩
          refine ⟨next, replaced folded, ?_⟩
          intro inStep
          have live : foldsLive session item = true := by
            cases status : foldStatus session done with
            | inStep =>
                rw [status] at inStep
                dsimp only at inStep
                split at inStep
                · assumption
                · cases inStep
            | behind =>
                rw [status] at inStep
                dsimp only at inStep
                split at inStep
                · assumption
                · cases inStep
            | broken => exact absurd status before
          exact state.step_folds live recorded (replaced _)

end Step

section Runs

variable {session : ReplaySession}

/-- The recomputation at an index is the fold of the actions up to there. -/
theorem foldSourceCheckpointEntriesThroughAction_eq
    (done rest : List (RecordedAction × ReplayOutcome))
    (item : RecordedAction × ReplayOutcome) :
    foldSourceCheckpointEntriesThroughAction session.files
        ((done ++ item :: rest).map Prod.fst) done.length =
      recomputed session (done ++ [item]) := by
  rw [foldSourceCheckpointEntriesThroughAction, recomputed, if_neg (by omega)]
  apply congrArg (List.foldlM (foldAction session.files) Dict.empty)
  rw [← List.map_take]
  apply congrArg (List.map Prod.fst)
  rw [Int.toNat_natCast, List.take_append, List.take_of_length_le (by omega)]
  simp

/-- The loop from a point on: what it compares agrees with the actions. -/
theorem replayLoop_agrees
    (rest : List (RecordedAction × ReplayOutcome)) :
    ∀ (done : List (RecordedAction × ReplayOutcome)) (state : ReplayState),
      FoldsFollow session done state →
      (∀ (before after : List (RecordedAction × ReplayOutcome))
        (item : RecordedAction × ReplayOutcome),
          rest = before ++ item :: after →
            comparesAt session item = true →
              foldStatus session (done ++ before ++ [item]) = .inStep) →
      (∀ compared ∈ state.compared,
        FoldAgrees session.files ((done ++ rest).map Prod.fst) compared) →
      ∀ compared ∈ (replayLoop session done.length state rest).compared,
        FoldAgrees session.files ((done ++ rest).map Prod.fst) compared := by
  induction rest with
  | nil =>
      intro done state _ _ agreed
      exact agreed
  | cons item rest induction =>
      intro done state follow inStep agreed
      have next :
          FoldsFollow session (done ++ [item])
            (state.step session done.length item) :=
        follow.step
      have reassociated : done ++ item :: rest = (done ++ [item]) ++ rest := by
        simp
      rw [replayLoop, reassociated]
      have lengths : done.length + 1 = (done ++ [item]).length := by simp
      rw [lengths]
      apply induction (done ++ [item]) _ next
      · intro before after later split compares
        have found := inStep (item :: before) after later (by rw [split]; rfl)
          compares
        simpa using found
      · intro compared member
        rw [← reassociated]
        rcases state.step_cases session done.length item with
          ⟨_, _, same⟩ | ⟨spec, folded, live, recorded, _, moved, added⟩
        · rw [same] at member
          exact agreed compared member
        · rw [added] at member
          rcases List.mem_append.mp member with old | new
          · exact agreed compared old
          · split at new
            · next captured =>
                rw [List.mem_singleton] at new
                subst new
                have status := inStep [] rest item rfl (by
                  rw [comparesAt, live, captured, recorded]
                  rfl)
                rw [List.append_nil] at status
                rcases next (by rw [status]; exact nofun) with
                  ⟨all, computed, same⟩
                refine ⟨all, ?_, ?_⟩
                · rw [foldSourceCheckpointEntriesThroughAction_eq]
                  exact computed
                · intro path
                  rw [← same status, moved]
            · cases new

theorem live_fold_agrees
    (items : List (RecordedAction × ReplayOutcome))
    (inStep : FoldsInStep session items) :
    LiveFoldAgrees session items := by
  intro compared member
  apply replayLoop_agrees items [] ReplayState.start foldsFollow_start
  · intro before after item split compares
    exact inStep before after item split compares
  · intro earlier none
    cases none
  · exact member

end Runs

/-! ## A checkpoint of a subagent -/

/-- A manifest of one link. -/
def linkManifest (name : String) : SourceFile :=
  .manifest
    ⟨Dict.empty.set [name] (ManifestEntry.symlink (some ["target"])), []⟩

/-- A full checkpoint and two incremental ones. -/
def linkFiles : SourceFiles := fun path =>
  if path = "full.json" then linkManifest "a"
  else if path = "sub.json" then linkManifest "b"
  else if path = "next.json" then linkManifest "c"
  else .missing

/-- A tool call that was replayed and captured. -/
def replayedCall
    (agentId : String) (checkpoint : CheckpointAfterValue) :
    RecordedAction × ReplayOutcome :=
  (⟨agentId, .toolExec, some "exec", checkpoint⟩,
    ⟨false, some Dict.empty, .unchanged⟩)

def linkSession : ReplaySession where
  sourceAgentId := "p"
  hasContainer := true
  files := linkFiles

/-- The parent, its subagent, and the parent again. -/
def laneActions : List (RecordedAction × ReplayOutcome) := [
  replayedCall "p" (.text "full.json"),
  replayedCall "p/sub"
    (.fields (some "sub.json") none (some "cas_manifest_incremental") none),
  replayedCall "p"
    (.fields (some "next.json") none (some "cas_manifest_incremental") none)]

/-- The parent alone. -/
def parentActions : List (RecordedAction × ReplayOutcome) := [
  replayedCall "p" (.text "full.json"),
  replayedCall "p"
    (.fields (some "next.json") none (some "cas_manifest_incremental") none)]

theorem live_fold_agrees_for_parent :
    LiveFoldAgrees linkSession parentActions := by
  apply live_fold_agrees
  intro before after item split _
  rcases before with _ | ⟨first, _ | ⟨second, rest⟩⟩
  · cases split
    decide +kernel
  · cases split
    decide +kernel
  · simp [parentActions] at split

/-- The loop skips the checkpoint of the subagent. -/
theorem live_fold_misses_subagent :
    ¬ LiveFoldAgrees linkSession laneActions := by
  intro agrees
  have last :
      (replayLoop linkSession 0 ReplayState.start
        laneActions).compared.getLast?.map
          (fun compared => (compared.1, compared.2.get ["b"])) =
        some (2, none) := by
    decide +kernel
  have recorded :
      (foldSourceCheckpointEntriesThroughAction linkFiles
        (laneActions.map Prod.fst) 2).toOption.map (·.get ["b"]) =
        some (some (.symlink ["target"])) := by
    decide +kernel
  rcases Option.map_eq_some_iff.mp last with ⟨⟨index, entries⟩, found, here⟩
  rcases Prod.mk.inj here with ⟨isThird, absent⟩
  subst isThird
  rcases agrees _ (List.mem_of_getLast? found) with ⟨folded, computed, same⟩
  change foldSourceCheckpointEntriesThroughAction linkFiles
    (laneActions.map Prod.fst) 2 = .ok folded at computed
  rw [computed] at recorded
  have present :
      folded.get ["b"] = some (CasManifestValue.symlink ["target"]) :=
    Option.some.inj recorded
  have missing : folded.get ["b"] = none := by
    rw [← same ["b"]]
    exact absent
  rw [missing] at present
  cases present

end AgentSchedBench.Checkpoint
