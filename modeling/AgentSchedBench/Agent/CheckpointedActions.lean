import AgentSchedBench.Agent.ToolRecords
import AgentSchedBench.Checkpoint.Collector
import AgentSchedBench.Library.JsonRoundTrip

/-!
# The checkpoints of an iteration

All tools of a response run before the first of its actions is recorded, and
the checkpoint of an action is taken while it is recorded.  Tools that may run
beside others are put in one batch; what they do to the tree comes in any
order.

A checkpoint belongs to its action if it is of the tree as it was when the
call had finished and no later call had changed anything.
-/

namespace AgentSchedBench.Agent

open AgentSchedBench.Checkpoint

/-! ## Batches -/

/-- The batches of the calls, the first of which has been read in part. -/
def partitionFrom (canBatch : ToolCall → Bool)
    (current : List (ToolCall × Nat)) :
    List (ToolCall × Nat) → List (List (ToolCall × Nat))
  | [] => if current.isEmpty then [] else [current]
  | call :: calls =>
      if canBatch call.1 then
        partitionFrom canBatch (current ++ [call]) calls
      else
        (if current.isEmpty then [] else [current]) ++
          [call] :: partitionFrom canBatch [] calls

/-- `_partition_tool_batches` -/
def partitionToolBatches (concurrentTools : Bool)
    (canBatch : ToolCall → Bool) (calls : List (ToolCall × Nat)) :
    List (List (ToolCall × Nat)) :=
  if concurrentTools then partitionFrom canBatch [] calls
  else calls.map fun call => [call]

/-- A call that cannot be batched is alone in its batch. -/
theorem partitionFrom_split {canBatch : ToolCall → Bool}
    {call : ToolCall × Nat} (alone : canBatch call.1 = false)
    (current front back : List (ToolCall × Nat)) :
    ∃ batches,
      partitionFrom canBatch current (front ++ call :: back) =
          batches ++ [call] :: partitionFrom canBatch [] back ∧
        batches.flatten = current ++ front := by
  induction front generalizing current with
  | nil =>
      refine ⟨if current.isEmpty then [] else [current], ?_, ?_⟩
      · rw [List.nil_append, partitionFrom, if_neg (by simp [alone])]
      · cases current <;> simp
  | cons first front induction =>
      rw [List.cons_append, partitionFrom]
      split
      · obtain ⟨batches, isPartition, isFront⟩ :=
          induction (current ++ [first])
        refine ⟨batches, isPartition, ?_⟩
        rw [isFront, List.append_assoc, List.singleton_append]
      · obtain ⟨batches, isPartition, isFront⟩ := induction []
        refine
          ⟨(if current.isEmpty then [] else [current]) ++ [first] :: batches,
            ?_, ?_⟩
        · rw [isPartition, List.append_assoc, List.cons_append]
        · rw [List.flatten_append, List.flatten_cons, isFront]
          cases current <;> simp

theorem partitionFrom_flatten (canBatch : ToolCall → Bool)
    (current calls : List (ToolCall × Nat)) :
    (partitionFrom canBatch current calls).flatten = current ++ calls := by
  induction calls generalizing current with
  | nil => cases current <;> simp [partitionFrom]
  | cons call calls induction =>
      rw [partitionFrom]
      split
      · rw [induction, List.append_assoc, List.singleton_append]
      · rw [List.flatten_append, List.flatten_cons, induction]
        cases current <;> simp

theorem partitionToolBatches_split {concurrentTools : Bool}
    {canBatch : ToolCall → Bool} {call : ToolCall × Nat}
    (alone : canBatch call.1 = false) (front back : List (ToolCall × Nat)) :
    ∃ before after,
      partitionToolBatches concurrentTools canBatch (front ++ call :: back) =
          before ++ [call] :: after ∧
        before.flatten = front ∧ after.flatten = back := by
  rw [partitionToolBatches]
  split
  · obtain ⟨before, isPartition, isFront⟩ :=
      partitionFrom_split alone [] front back
    exact ⟨before, _, isPartition, isFront,
      partitionFrom_flatten canBatch [] back⟩
  · refine ⟨front.map fun call => [call], back.map fun call => [call],
      ?_, ?_, ?_⟩
    · rw [List.map_append, List.map_cons]
    · exact List.flatMap_singleton' front
    · exact List.flatMap_singleton' back

/-! ## Runs of the tools -/

/-- What a call does while the tools run. -/
inductive ToolEvent where
  | changes (index : Nat) (change : Tree → Tree)
  | finishes (index : Nat)

namespace ToolEvent

def index : ToolEvent → Nat
  | changes index _ => index
  | finishes index => index

def apply (tree : Tree) : ToolEvent → Tree
  | changes _ change => change tree
  | finishes _ => tree

end ToolEvent

/-- The tree after some events. -/
def treeAfter (tree : Tree) (events : List ToolEvent) : Tree :=
  events.foldl ToolEvent.apply tree

/-- A call changes the tree, and finishes. -/
def callEvents (changes : Nat → List (Tree → Tree))
    (call : ToolCall × Nat) : List ToolEvent :=
  (changes call.2).map (.changes call.2) ++ [.finishes call.2]

/-- Lists are taken from in any order. -/
inductive Interleaves {α : Type} : List (List α) → List α → Prop where
  | done {lists : List (List α)} (all : ∀ items ∈ lists, items = []) :
      Interleaves lists []
  | take {front back : List (List α)} {item : α} {items taken : List α}
      (rest : Interleaves (front ++ items :: back) taken) :
      Interleaves (front ++ (item :: items) :: back) (item :: taken)

theorem Interleaves.mem {α : Type} {lists : List (List α)} {taken : List α}
    (interleaves : Interleaves lists taken) :
    ∀ item ∈ taken, ∃ items ∈ lists, item ∈ items := by
  induction interleaves with
  | done => nofun
  | @take front back first items taken rest induction =>
      intro item member
      rcases List.mem_cons.mp member with rfl | later
      · exact ⟨item :: items, by simp, List.mem_cons_self⟩
      · obtain ⟨others, isOthers, inOthers⟩ := induction item later
        rcases List.mem_append.mp isOthers with inFront | inBack
        · exact ⟨others, List.mem_append_left _ inFront, inOthers⟩
        · rcases List.mem_cons.mp inBack with rfl | inBack
          · exact ⟨first :: others, by simp,
              List.mem_cons_of_mem _ inOthers⟩
          · exact ⟨others, by simp [inBack], inOthers⟩

/-- The calls of a batch run, beside each other if there are several. -/
def BatchRuns (concurrentTools : Bool)
    (changes : Nat → List (Tree → Tree)) (batch : List (ToolCall × Nat))
    (events : List ToolEvent) : Prop :=
  if concurrentTools ∧ 1 < batch.length then
    Interleaves (batch.map (callEvents changes)) events
  else events = batch.flatMap (callEvents changes)

theorem BatchRuns.mem {concurrentTools : Bool}
    {changes : Nat → List (Tree → Tree)} {batch : List (ToolCall × Nat)}
    {events : List ToolEvent}
    (runs : BatchRuns concurrentTools changes batch events) :
    ∀ event ∈ events, ∃ call ∈ batch, event.index = call.2 := by
  have ofCall {call : ToolCall × Nat} {event : ToolEvent}
      (member : event ∈ callEvents changes call) : event.index = call.2 := by
    rcases List.mem_append.mp member with isChange | isEnd
    · obtain ⟨_, _, rfl⟩ := List.mem_map.mp isChange
      rfl
    · cases List.mem_singleton.mp isEnd
      rfl
  intro event member
  rw [BatchRuns] at runs
  split at runs
  · obtain ⟨items, isItems, inItems⟩ := runs.mem event member
    obtain ⟨call, isCall, rfl⟩ := List.mem_map.mp isItems
    exact ⟨call, isCall, ofCall inItems⟩
  · rw [runs] at member
    obtain ⟨call, isCall, inCall⟩ := List.mem_flatMap.mp member
    exact ⟨call, isCall, ofCall inCall⟩

/-! ## Iterations -/

/--
An iteration whose tools have run.  The tool `exec` may not run beside others.
-/
structure ToolIteration where
  agentId : String
  context : HookContext
  concurrentTools : Bool
  concurrencySafe : ToolCall → Bool
  execExclusive :
    ∀ call, call.name = "exec" → concurrencySafe call = false
  tree : Tree
  changes : Nat → List (Tree → Tree)
  events : List ToolEvent
  parts : List (List ToolEvent)
  runs :
    List.Forall₂ (BatchRuns concurrentTools changes)
      (partitionToolBatches concurrentTools concurrencySafe
        context.toolCalls.zipIdx) parts
  inBatches : events = parts.flatten

/-- An action that has been recorded, with the index of its call. -/
structure RecordedAction where
  index : Nat
  action : ToolExec
  checkpointAfter : CheckpointAfter
  smeared : Bool

/-- Does the record carry a checkpoint? -/
def RecordedAction.Checkpointed (record : RecordedAction) : Prop :=
  ∃ checkpoint, record.checkpointAfter = .recorded checkpoint

namespace ToolIteration

variable (iteration : ToolIteration)

/-- `source_concurrent_execs` -/
def sourceConcurrentExecs : Bool :=
  1 < (iteration.context.toolCalls.filter (·.name == "exec")).length

/-- The tree that is checkpointed while the actions are recorded. -/
def checkpointedTree : Tree := treeAfter iteration.tree iteration.events

/--
What is recorded of the checkpoint of an action, if a schedule takes one:
it asks whether the call is a command, and the rest is given.
-/
def checkpointAfter (outcome : CheckpointAfter) (action : ToolExec) :
    CheckpointAfter :=
  if (singleExecCommandArgs action.toolName
      (JsonText.loads action.toolArgs.toList)).isNone then .notTaken
  else outcome

/-- The action for the result of a call. -/
def recordedAction (outcomes : Nat → CheckpointAfter)
    (contents : Nat → String) (call : ToolCall × Nat) : RecordedAction :=
  let action :=
    iteration.context.action iteration.agentId
      (toolResult call.1.id call.1.name (contents call.2))
  let taken := checkpointAfter (outcomes call.2) action
  { index := call.2
    action := action
    checkpointAfter := taken
    smeared := taken != .notTaken && iteration.sourceConcurrentExecs }

/-- The actions that `after_iteration` records, until it raises. -/
def recordedActions (outcomes : Nat → CheckpointAfter)
    (contents : Nat → String) (raises : Nat → Bool) : List RecordedAction :=
  let calls :=
    iteration.context.toolCalls.zipIdx.filter fun call =>
      (toolResult call.1.id call.1.name (contents call.2)).traceable
  (calls.zipIdx.takeWhile (!raises ·.2)).map
    fun item => iteration.recordedAction outcomes contents item.1

/--
At this point the call has finished, and no later call has changed anything.
-/
def FinishedAt (index point : Nat) : Prop :=
  .finishes index ∈ iteration.events.take point ∧
    ∀ later change,
      ToolEvent.changes later change ∈ iteration.events.take point →
        later ≤ index

/--
The checkpointed tree has the files and links of the tree at such a point.
-/
def Belongs (index : Nat) : Prop :=
  ∃ point, iteration.FinishedAt index point ∧
    iteration.checkpointedTree.entries =
      (treeAfter iteration.tree (iteration.events.take point)).entries

/-- The calls after this one leave the files and links as they are. -/
def LaterUnchanged (index : Nat) : Prop :=
  let finished :=
    treeAfter iteration.tree
      (iteration.events.filter fun event => event.index ≤ index)
  (treeAfter finished
      (iteration.events.filter fun event => index < event.index)).entries =
    finished.entries

/-! ### Around an exclusive call -/

/-- The events of a call that is alone, between those of the others. -/
structure Around (index : Nat) (before after : List ToolEvent) : Prop where
  events :
    iteration.events =
      (before ++ (iteration.changes index).map (.changes index)) ++
        .finishes index :: after
  before : ∀ event ∈ before, event.index < index
  after : ∀ event ∈ after, index < event.index

variable {iteration}

/-- Events of several batches are events of their calls. -/
theorem mem_flatten_parts {concurrentTools : Bool}
    {changes : Nat → List (Tree → Tree)}
    {batches : List (List (ToolCall × Nat))} {parts : List (List ToolEvent)}
    (runs : List.Forall₂ (BatchRuns concurrentTools changes) batches parts) :
    ∀ event ∈ parts.flatten, ∃ call ∈ batches.flatten,
      event.index = call.2 := by
  induction runs with
  | nil => nofun
  | @cons batch part batches parts run _ induction =>
      intro event member
      rw [List.flatten_cons] at member ⊢
      rcases List.mem_append.mp member with first | later
      · obtain ⟨call, isCall, same⟩ := run.mem event first
        exact ⟨call, List.mem_append_left _ isCall, same⟩
      · obtain ⟨call, isCall, same⟩ := induction event later
        exact ⟨call, List.mem_append_right _ isCall, same⟩

theorem exists_around {call : ToolCall × Nat}
    (member : call ∈ iteration.context.toolCalls.zipIdx)
    (isExec : call.1.name = "exec") :
    ∃ before after, iteration.Around call.2 before after := by
  obtain ⟨front, back, isCalls⟩ := List.append_of_mem member
  have ordered :
      (iteration.context.toolCalls.zipIdx.map Prod.snd).Pairwise (· < ·) := by
    rw [List.zipIdx_map_snd]
    exact List.pairwise_lt_range'
  rw [isCalls, List.map_append, List.map_cons, List.pairwise_append,
    List.pairwise_cons] at ordered
  obtain ⟨_, ⟨inBack, _⟩, inFront⟩ := ordered
  obtain ⟨batches, others, isPartition, isFront, isBack⟩ :
      ∃ before after,
        partitionToolBatches iteration.concurrentTools
            iteration.concurrencySafe (front ++ call :: back) =
          before ++ [call] :: after ∧
        before.flatten = front ∧ after.flatten = back :=
    partitionToolBatches_split (iteration.execExclusive call.1 isExec)
      front back
  have runs := iteration.runs
  rw [isCalls, isPartition] at runs
  obtain ⟨before, rest, ranBefore, ranRest, isParts⟩ :=
    forall₂_append_left runs
  cases ranRest with
  | @cons _ own _ after ranOwn ranAfter =>
      have isOwn : own = callEvents iteration.changes call := by
        rw [BatchRuns, if_neg (by simp)] at ranOwn
        rw [ranOwn, List.flatMap_singleton]
      refine ⟨before.flatten, after.flatten, ?_, ?_, ?_⟩
      · rw [iteration.inBatches, isParts, List.flatten_append,
          List.flatten_cons, isOwn, callEvents]
        simp only [List.append_assoc, List.cons_append, List.nil_append]
      · intro event inBefore
        obtain ⟨other, isOther, same⟩ :=
          mem_flatten_parts ranBefore event inBefore
        rw [isFront] at isOther
        rw [same]
        exact inFront _ (List.mem_map_of_mem isOther) _ List.mem_cons_self
      · intro event inAfter
        obtain ⟨other, isOther, same⟩ :=
          mem_flatten_parts ranAfter event inAfter
        rw [isBack] at isOther
        rw [same]
        exact inBack _ (List.mem_map_of_mem isOther)

/-- What only finishes leaves the tree as it is. -/
theorem treeAfter_noChanges (tree : Tree) {events : List ToolEvent}
    (noChanges :
      ∀ index change, ToolEvent.changes index change ∉ events) :
    treeAfter tree events = tree := by
  induction events generalizing tree with
  | nil => rfl
  | cons event events induction =>
      cases event with
      | changes index change =>
          exact absurd List.mem_cons_self (noChanges index change)
      | finishes index =>
          exact induction tree fun index change member =>
            noChanges index change (List.mem_cons_of_mem _ member)

section Around

variable {index : Nat} {before after : List ToolEvent}

/-- The events up to the end of the call. -/
def own (iteration : ToolIteration) (index : Nat)
    (before : List ToolEvent) : List ToolEvent :=
  (before ++ (iteration.changes index).map (.changes index)) ++
    [.finishes index]

theorem Around.eq (around : iteration.Around index before after) :
    iteration.events = iteration.own index before ++ after := by
  rw [around.events, own, List.append_assoc _ [_], List.singleton_append]

theorem Around.own_index (around : iteration.Around index before after) :
    ∀ event ∈ iteration.own index before, event.index ≤ index := by
  intro event member
  rw [own, List.mem_append, List.mem_append, List.mem_map,
    List.mem_singleton] at member
  rcases member with (inBefore | ⟨_, _, rfl⟩) | rfl
  · exact Nat.le_of_lt (around.before event inBefore)
  · exact Nat.le_refl _
  · exact Nat.le_refl _

/-- At any point at which the call is finished the tree is the same. -/
theorem Around.finishedAt (around : iteration.Around index before after)
    {point : Nat} (finished : iteration.FinishedAt index point) :
    treeAfter iteration.tree (iteration.events.take point) =
      treeAfter iteration.tree (iteration.own index before) := by
  obtain ⟨ended, noLater⟩ := finished
  have enough : (iteration.own index before).length ≤ point := by
    by_contra less
    have inFront :
        .finishes index ∈
          before ++ (iteration.changes index).map (.changes index) := by
      rw [around.events, List.take_append_of_le_length] at ended
      · exact List.mem_of_mem_take ended
      · rw [own, List.length_append, List.length_singleton] at less
        omega
    rcases List.mem_append.mp inFront with inBefore | isChange
    · exact absurd (around.before _ inBefore) (Nat.lt_irrefl _)
    · obtain ⟨_, _, same⟩ := List.mem_map.mp isChange
      cases same
  have taken :
      iteration.events.take point =
        iteration.own index before ++
          after.take (point - (iteration.own index before).length) := by
    rw [around.eq, List.take_append, List.take_of_length_le enough]
  rw [taken, treeAfter, List.foldl_append, ← treeAfter, ← treeAfter]
  apply treeAfter_noChanges
  intro later change member
  have early := noLater later change (by
    rw [taken]
    exact List.mem_append_right _ member)
  exact absurd (around.after _ (List.mem_of_mem_take member))
    (Nat.not_lt.mpr early)

theorem Around.finishes (around : iteration.Around index before after) :
    iteration.FinishedAt index (iteration.own index before).length := by
  rw [FinishedAt, around.eq, List.take_left]
  constructor
  · exact List.mem_append_right _ List.mem_cons_self
  · intro later change member
    exact around.own_index _ member

/-- What is checkpointed belongs to the call if nothing changes later. -/
theorem Around.belongs_iff (around : iteration.Around index before after) :
    iteration.Belongs index ↔ iteration.LaterUnchanged index := by
  have early :
      iteration.events.filter (fun event => event.index ≤ index) =
        iteration.own index before := by
    rw [around.eq, List.filter_append, List.filter_eq_self.mpr,
      List.filter_eq_nil_iff.mpr, List.append_nil]
    · intro event member
      simpa using around.after event member
    · intro event member
      simpa using around.own_index event member
  have late :
      iteration.events.filter (fun event => index < event.index) = after := by
    rw [around.eq, List.filter_append, List.filter_eq_nil_iff.mpr,
      List.filter_eq_self.mpr, List.nil_append]
    · intro event member
      simpa using around.after event member
    · intro event member
      simpa using around.own_index event member
  have whole :
      iteration.checkpointedTree =
        treeAfter (treeAfter iteration.tree (iteration.own index before))
          after := by
    rw [checkpointedTree, around.eq, treeAfter, List.foldl_append]
    rfl
  rw [LaterUnchanged, early, late]
  constructor
  · rintro ⟨point, finished, same⟩
    rw [around.finishedAt finished, whole] at same
    exact same
  · intro same
    refine ⟨_, around.finishes, ?_⟩
    rw [around.finishedAt around.finishes, whole]
    exact same

end Around

/-! ### The records -/

section Records

variable {outcomes : Nat → CheckpointAfter} {contents : Nat → String}
  {raises : Nat → Bool} {strBlocks : List Block → String}

/-- The actions are those that the hook writes for the results. -/
theorem recordedActions_action (front : List Message) {last : Message}
    (notTool : last.role ≠ .tool)
    (messages :
      iteration.context.messages =
        front ++ [last] ++
          iteration.context.toolCalls.zipIdx.map fun call =>
            toolMessage call.1 (.text (contents call.2))) :
    (iteration.recordedActions outcomes contents raises).map (·.action) =
      iteration.context.actions strBlocks iteration.agentId raises := by
  have results :
      extractToolResults strBlocks iteration.context.messages =
        iteration.context.toolCalls.zipIdx.map fun call =>
          toolResult call.1.id call.1.name (contents call.2) := by
    rw [messages, extractToolResults_append front notTool, List.map_map]
    · rfl
    · intro message member
      obtain ⟨_, _, rfl⟩ := List.mem_map.mp member
      rfl
  rw [HookContext.actions, results, recordedActions]
  simp only [List.filter_map, List.zipIdx_map, List.takeWhile_map,
    List.map_map]
  rfl

theorem mem_recordedActions {record : RecordedAction}
    (member : record ∈ iteration.recordedActions outcomes contents raises) :
    ∃ call ∈ iteration.context.toolCalls.zipIdx,
      record = iteration.recordedAction outcomes contents call := by
  obtain ⟨item, isItem, rfl⟩ := List.mem_map.mp member
  have isCall := List.fst_mem_of_mem_zipIdx
    ((List.takeWhile_prefix _).subset isItem)
  exact ⟨item.1, List.mem_of_mem_filter isCall, rfl⟩

/-- Nothing is left out if nothing raises. -/
theorem recordedAction_mem {call : ToolCall × Nat}
    (member : call ∈ iteration.context.toolCalls.zipIdx)
    (traceable :
      (toolResult call.1.id call.1.name (contents call.2)).traceable) :
    iteration.recordedAction outcomes contents call ∈
      iteration.recordedActions outcomes contents fun _ => false := by
  have kept :
      call ∈ iteration.context.toolCalls.zipIdx.filter fun call =>
        (toolResult call.1.id call.1.name (contents call.2)).traceable :=
    List.mem_filter.mpr ⟨member, traceable⟩
  obtain ⟨position, inRange, isCall⟩ := List.mem_iff_getElem.mp kept
  rw [recordedActions, List.mem_map]
  refine ⟨(call, position), ?_, rfl⟩
  have indexed := List.mk_mem_zipIdx_iff_getElem?.mpr
    (List.getElem?_eq_some_iff.mpr ⟨inRange, isCall⟩)
  convert indexed
  exact List.takeWhile_eq_self_iff.mpr fun _ _ => rfl

/-- A command is checkpointed if the schedule takes a checkpoint. -/
theorem checkpointed_command {call : ToolCall × Nat} {toolArgs : String}
    {checkpoint : CheckpointRecord}
    (taken : outcomes call.2 = .recorded checkpoint)
    (isArgs :
      (toolArgsById iteration.context.toolCalls).get call.1.id =
        some toolArgs)
    (isCommand :
      (singleExecCommandArgs call.1.name
        (JsonText.loads toolArgs.toList)).isSome) :
    (iteration.recordedAction outcomes contents call).Checkpointed := by
  refine ⟨checkpoint, ?_⟩
  have own :
      (iteration.context.action iteration.agentId
        (toolResult call.1.id call.1.name (contents call.2))).toolArgs =
          toolArgs := by
    show ((toolArgsById iteration.context.toolCalls).get _).getD "" = _
    rw [toolResult, isArgs, Option.getD_some]
  have name :
      (iteration.context.action iteration.agentId
        (toolResult call.1.id call.1.name (contents call.2))).toolName =
          call.1.name := rfl
  rw [recordedAction]
  dsimp only
  rw [checkpointAfter, own, name, taken, if_neg]
  rw [Option.isNone_iff_eq_none]
  exact Option.isSome_iff_ne_none.mp isCommand

/-- Only commands are checkpointed. -/
theorem checkpointed_isExec {call : ToolCall × Nat}
    (checkpointed :
      (iteration.recordedAction outcomes contents call).Checkpointed) :
    call.1.name = "exec" ∧
      (iteration.recordedAction outcomes contents call).smeared =
        iteration.sourceConcurrentExecs := by
  obtain ⟨checkpoint, recorded⟩ := checkpointed
  constructor
  · by_contra other
    rw [recordedAction] at recorded
    dsimp only at recorded
    rw [checkpointAfter, if_pos] at recorded
    · cases recorded
    · rw [singleExecCommandArgs, if_pos]
      · rfl
      · exact other
  · rw [recordedAction] at recorded ⊢
    dsimp only at recorded ⊢
    rw [recorded]
    exact Bool.true_and _

end Records

/-- Does every checkpoint belong to its action, or is the action smeared? -/
def CheckpointsBelong (iteration : ToolIteration)
    (outcomes : Nat → CheckpointAfter) (contents : Nat → String)
    (raises : Nat → Bool) : Prop :=
  ∀ record ∈ iteration.recordedActions outcomes contents raises,
    record.Checkpointed →
      record.smeared = true ∨ iteration.Belongs record.index

/--
A checkpoint belongs to its action, or the action is smeared, if and only if
the response has several commands, or the calls after this one leave the files
and links as they are.
-/
theorem checkpointsBelong_iff (iteration : ToolIteration)
    (outcomes : Nat → CheckpointAfter) (contents : Nat → String)
    (raises : Nat → Bool) :
    iteration.CheckpointsBelong outcomes contents raises ↔
      ∀ record ∈ iteration.recordedActions outcomes contents raises,
        record.Checkpointed →
          1 < (iteration.context.toolCalls.filter
              (·.name == "exec")).length ∨
            iteration.LaterUnchanged record.index := by
  refine forall₃_congr fun record member checkpointed => ?_
  obtain ⟨call, isCall, rfl⟩ := mem_recordedActions member
  obtain ⟨isExec, smeared⟩ := checkpointed_isExec checkpointed
  obtain ⟨before, after, around⟩ := exists_around isCall isExec
  have belongs :
      iteration.Belongs (iteration.recordedAction outcomes contents call).index
        ↔ iteration.LaterUnchanged
          (iteration.recordedAction outcomes contents call).index :=
    around.belongs_iff
  rw [smeared, sourceConcurrentExecs, decide_eq_true_eq, belongs]

end ToolIteration

/-! ## A command and a write -/

/-- The arguments of a command. -/
def makeArguments : String :=
  String.ofList (JsonText.dumps (.obj [("command", .str "make")]))

/-- `make` is run, and then a file is written. -/
def writtenIteration : ToolIteration where
  agentId := "task"
  context :=
    { iteration := 0
      messages := []
      toolCalls :=
        [⟨"call_1", "exec", makeArguments⟩,
          ⟨"call_2", "write_file", "\x7b\x7d"⟩]
      structuredResults := Dict.empty }
  concurrentTools := true
  concurrencySafe := fun _ => false
  execExclusive := fun _ _ => rfl
  tree := scriptTree
  changes := fun index => if index = 1 then [fun _ => outputTree] else []
  events := [.finishes 0, .changes 1 fun _ => outputTree, .finishes 1]
  parts :=
    [[.finishes 0], [.changes 1 fun _ => outputTree, .finishes 1]]
  runs := by
    refine .cons ?_ (.cons ?_ .nil) <;>
      · rw [BatchRuns, if_neg (by decide)]
        rfl
  inBatches := rfl

/-- The first checkpoint. -/
def makeCheckpoint : CheckpointRecord :=
  ⟨"call_1-manifest.json", .casManifestFull, none, false, 0⟩

/-- What is written by the second call is checkpointed with the first. -/
theorem written_not_belongs :
    ¬ writtenIteration.CheckpointsBelong (fun _ => .recorded makeCheckpoint)
      (fun _ => "") (fun _ => false) := by
  have wellFormed :
      JsonText.WellFormed (.obj [("command", .str "make")]) := by
    simp [JsonText.WellFormed, JsonText.WellFormedFields]
  have parsed :
      JsonText.loads makeArguments.toList =
        some (.obj [("command", .str "make")]) := by
    rw [makeArguments, String.toList_ofList, JsonText.loads_dumps wellFormed]
  have around :
      writtenIteration.Around 0 []
        [.changes 1 fun _ => outputTree, .finishes 1] := by
    refine ⟨rfl, nofun, ?_⟩
    simp [ToolEvent.index]
  have isArgs :
      (toolArgsById writtenIteration.context.toolCalls).get "call_1" =
        some makeArguments := by
    rfl
  have checkpointed :
      (writtenIteration.recordedAction (fun _ => .recorded makeCheckpoint)
        (fun _ => "")
        (⟨"call_1", "exec", makeArguments⟩, 0)).Checkpointed := by
    apply ToolIteration.checkpointed_command rfl isArgs
    show (singleExecCommandArgs "exec"
      (JsonText.loads makeArguments.toList)).isSome = true
    rw [parsed]
    decide
  have recorded := (ToolIteration.checkpointed_isExec checkpointed).2
  have notSmeared : writtenIteration.sourceConcurrentExecs = false := by
    rfl
  have member :
      writtenIteration.recordedAction (fun _ => .recorded makeCheckpoint)
          (fun _ => "") (⟨"call_1", "exec", makeArguments⟩, 0) ∈
        writtenIteration.recordedActions
          (fun _ => .recorded makeCheckpoint) (fun _ => "")
          (fun _ => false) := by
    apply ToolIteration.recordedAction_mem
    · exact List.mem_cons_self
    · decide
  intro belongs
  rcases belongs _ member checkpointed with smeared | own
  · rw [recorded, notSmeared] at smeared
    cases smeared
  · have same := congrFun (around.belongs_iff.mp own) ["out.txt"]
    have differs :
        outputTree.entries ["out.txt"] ≠ scriptTree.entries ["out.txt"] := by
      decide
    exact differs same

end AgentSchedBench.Agent
