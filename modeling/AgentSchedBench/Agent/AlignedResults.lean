import AgentSchedBench.Agent.ExecuteTools

/-!
# Results stand where the calls stood

The calls that have returned, those that run and those that wait are the calls
of the reply, in this order.  No step changes it, so what has been returned is
in the order of the calls when the run is over.
-/

namespace AgentSchedBench.Agent

/-- A call, with what its run has found out. -/
abbrev DoneCall := (ToolCall × Nat) × CallOutcome

def DoneCall.returned (done : DoneCall) : ToolReturn :=
  done.2.returned done.1.1

def DoneCall.entry (done : DoneCall) : LogEntry :=
  ⟨done.1, .returned done.2⟩

/-- The task of a call that has returned. -/
def DoneCall.task {Local : Type} (done : DoneCall) : ToolTask Local :=
  ⟨done.1, .ended (.returned done.2)⟩

variable {World Local : Type} {runTool : RunTool World Local}
  {toolCalls : List ToolCall}

/-- How far the run is: the calls whose values have been collected. -/
structure ExecuteProgress (toolCalls : List ToolCall)
    (state : ExecuteState World Local) (done : List DoneCall) : Prop where
  collected : state.toolResults = done.map DoneCall.returned
  order : done.map Prod.fst ++ (state.tasks.map ToolTask.call ++
    state.groups.flatten) = toolCalls.zipIdx
  logged : state.shared.log.Perm
    (done.map DoneCall.entry ++ state.tasks.filterMap ToolTask.entry)

/-! ## Steps -/

/-- A task keeps its call, and the log gets what it comes to. -/
theorem TaskMove.logged {shared later : SharedRun World}
    {task next : ToolTask Local} (move : TaskMove runTool shared task later next) :
    next.call = task.call ∧ task.entry = none ∧
      later.log = shared.log ++ next.entry.toList := by
  cases move with
  | run move => exact ⟨rfl, rfl, (List.append_nil _).symm⟩
  | finish ends => exact ⟨rfl, rfl, rfl⟩

/-- Tasks whose values are there have all returned. -/
theorem exists_done {tasks : List (ToolTask Local)} {values : List ToolReturn}
    (returned : tasks.mapM ToolTask.value = some values) :
    ∃ done : List DoneCall, tasks = done.map DoneCall.task ∧
      values = done.map DoneCall.returned := by
  induction tasks generalizing values with
  | nil =>
      cases returned
      exact ⟨[], rfl, rfl⟩
  | cons task tasks induction =>
      rw [List.mapM_cons, Option.bind_eq_bind, Option.bind_eq_some_iff] at returned
      obtain ⟨value, isValue, rest⟩ := returned
      rw [Option.bind_eq_bind, Option.bind_eq_some_iff] at rest
      obtain ⟨others, areOthers, isValues⟩ := rest
      obtain ⟨done, rfl, rfl⟩ := induction areOthers
      cases isValues
      obtain ⟨call, place⟩ := task
      match place, isValue with
      | .ended (.returned outcome), isValue =>
          cases isValue
          exact ⟨(call, outcome) :: done, rfl, rfl⟩

theorem filterMap_entry_task (done : List DoneCall) :
    (done.map DoneCall.task).filterMap
        (ToolTask.entry : ToolTask Local → Option LogEntry) =
      done.map DoneCall.entry := by
  rw [List.filterMap_map]
  exact List.filterMap_eq_map ▸ rfl

theorem filterMap_cons_toList {α β : Type} (f : α → Option β) (first : α)
    (rest : List α) :
    (first :: rest).filterMap f = (f first).toList ++ rest.filterMap f := by
  rw [List.filterMap_cons]
  cases f first <;> rfl

namespace ExecuteProgress

theorem start (spec : BatchSpec) (world : World) :
    ExecuteProgress toolCalls
      (⟨⟨world, []⟩, [], [], awaited spec toolCalls⟩ :
        ExecuteState World Local) [] where
  collected := rfl
  order := awaited_flatten spec toolCalls
  logged := .nil

theorem step {before after : ExecuteState World Local} {done : List DoneCall}
    (progress : ExecuteProgress toolCalls before done)
    (step : ExecuteStep runTool before after) :
    ∃ later, ExecuteProgress toolCalls after later := by
  obtain ⟨collected, order, logged⟩ := progress
  cases step with
  | @await shared toolResults group groups =>
      refine ⟨done, collected, ?_, ?_⟩
      · rw [← order]
        show _ ++ ((group.map (startTask runTool)).map ToolTask.call ++ _) = _
        rw [List.map_map]
        exact congrArg (_ ++ ·) (congrArg (· ++ groups.flatten) (List.map_id _))
      · refine logged.trans ?_
        show List.Perm _ (_ ++ (group.map (startTask runTool)).filterMap _)
        rw [List.filterMap_map]
        exact .of_eq (congrArg (_ ++ ·) (List.filterMap_none _).symm)
  | @task shared later tasks next toolResults groups step =>
      cases step with
      | @task front back task next _ _ move =>
          obtain ⟨sameCall, running, isLog⟩ := move.logged
          refine ⟨done, collected, ?_, ?_⟩
          · rw [← order]
            simp only [List.map_append, List.map_cons, sameCall]
          · rw [List.filterMap_append, List.filterMap_cons_none running] at logged
            show later.log.Perm (_ ++ (front ++ next :: back).filterMap _)
            rw [isLog, List.filterMap_append, filterMap_cons_toList]
            refine (logged.append_right _).trans ?_
            rw [List.append_assoc, List.append_assoc]
            exact ((List.perm_append_comm).append_left _).append_left _
  | extend returned =>
      obtain ⟨others, rfl, rfl⟩ := exists_done returned
      refine ⟨done ++ others, ?_, ?_, ?_⟩
      · show _ ++ _ = _
        rw [List.map_append, ← collected]
      · rw [← order, List.map_append, List.append_assoc, List.map_map]
        rfl
      · refine logged.trans (.of_eq ?_)
        show _ ++ (others.map DoneCall.task).filterMap _ = _ ++ []
        rw [filterMap_entry_task, List.append_nil, List.map_append]

theorem run {spec : BatchSpec} {world : World} {state : ExecuteState World Local}
    (reached : state.Reached runTool spec toolCalls world) :
    ∃ done, ExecuteProgress toolCalls state done := by
  induction reached with
  | refl => exact ⟨[], start spec world⟩
  | tail _ step induction =>
      obtain ⟨done, progress⟩ := induction
      exact progress.step step

end ExecuteProgress

/-! ## The end -/

namespace ExecuteProgress

variable {state : ExecuteState World Local} {done : List DoneCall}

/-- A call that is done stands where it stood in the reply. -/
theorem position_done (order : done.map Prod.fst = toolCalls.zipIdx)
    {one : DoneCall} {index : Nat} (isOne : done[index]? = some one) :
    index = one.1.2 := by
  have isCall : toolCalls.zipIdx[index]? = some one.1 := by
    rw [← order, List.getElem?_map, isOne, Option.map_some]
  rw [List.getElem?_zipIdx, Option.map_eq_some_iff] at isCall
  obtain ⟨toolCall, -, isCall⟩ := isCall
  rw [← isCall]
  exact (Nat.zero_add index).symm

theorem getElem?_done (order : done.map Prod.fst = toolCalls.zipIdx)
    {one : DoneCall} (member : one ∈ done) : done[one.1.2]? = some one := by
  obtain ⟨index, isOne⟩ := List.mem_iff_getElem?.mp member
  rwa [← position_done order isOne]

theorem first_done (order : done.map Prod.fst = toolCalls.zipIdx)
    {front back : List DoneCall} {one other : DoneCall}
    (isDone : done = front ++ one :: back) (member : other ∈ done)
    (earlier : other.1.2 < one.1.2) : other ∈ front := by
  have here : front.length = one.1.2 := by
    refine position_done order ?_
    rw [isDone, List.getElem?_append_right (Nat.le_refl _), Nat.sub_self,
      List.getElem?_cons_zero]
  have isOther := getElem?_done order member
  rw [isDone, List.getElem?_append_left (here ▸ earlier)] at isOther
  exact List.mem_of_getElem? isOther

theorem aligned (progress : ExecuteProgress toolCalls state done)
    {executed : ExecutedTools} (returns : state.Returns executed) :
    Aligned toolCalls state.shared.log executed := by
  obtain ⟨noTasks, noGroups, rfl⟩ := returns
  obtain ⟨collected, order, logged⟩ := progress
  rw [noTasks, noGroups] at order
  replace order : done.map Prod.fst = toolCalls.zipIdx := by
    rw [← order]
    exact (List.append_nil _).symm
  replace logged : state.shared.log.Perm (done.map DoneCall.entry) := by
    rw [noTasks] at logged
    exact logged.trans (.of_eq (List.append_nil _))
  have ofLog {entry : LogEntry} (member : entry ∈ state.shared.log) :
      ∃ one ∈ done, one.entry = entry := List.mem_map.mp (logged.mem_iff.mp member)
  have errors : (ExecutedTools.ofReturns state.toolResults).fatalError =
      done.findSome? fun one => one.2.error := by
    rw [ExecutedTools.ofReturns_fatalError, collected, List.findSome?_map]
    rfl
  refine ⟨?_, ?_, ?_, ?_, ?_, ?_⟩
  · rw [← order]
    refine (logged.map LogEntry.call).trans (.of_eq ?_)
    rw [List.map_map]
    rfl
  · have isLength := congrArg List.length order
    rw [List.length_map, List.length_zipIdx] at isLength
    rw [ExecutedTools.ofReturns_results, collected, List.length_map,
      List.length_map, isLength]
  · rw [ExecutedTools.ofReturns_events, collected, List.map_map, List.map_map,
      ← List.zipIdx_map_fst 0 toolCalls, ← order, List.map_map, List.map_map]
    rfl
  · intro entry member
    obtain ⟨one, isDone, rfl⟩ := ofLog member
    have isOne := getElem?_done order isDone
    refine ⟨one.2, rfl, ?_, ?_⟩
    · rw [ExecutedTools.ofReturns_results, collected, List.map_map,
        List.getElem?_map]
      show (done[one.1.2]?).map _ = _
      rw [isOne]
      rfl
    · rw [ExecutedTools.ofReturns_events, collected, List.map_map,
        List.getElem?_map]
      show (done[one.1.2]?).map _ = _
      rw [isOne]
      rfl
  · intro noError entry member outcome isEnd
    obtain ⟨one, isDone, rfl⟩ := ofLog member
    cases isEnd
    rw [errors, List.findSome?_eq_none_iff] at noError
    exact noError one isDone
  · intro error isError
    rw [errors, List.findSome?_eq_some_iff] at isError
    obtain ⟨front, one, back, isDone, hasError, none⟩ := isError
    refine ⟨one.entry, logged.mem_iff.mpr (List.mem_map_of_mem ?_), one.2, rfl,
      hasError, ?_⟩
    · rw [isDone]
      exact List.mem_append_right _ List.mem_cons_self
    · intro other member earlier outcome isEnd
      obtain ⟨another, anotherDone, rfl⟩ := ofLog member
      cases isEnd
      exact none another (first_done order isDone anotherDone earlier)

end ExecuteProgress

/-- The batches are the calls in order, only safe calls share one, and in
whatever order they end, what is returned is aligned with the calls. -/
theorem executeTools_aligned (runTool : RunTool World Local) (spec : BatchSpec)
    (toolCalls : List ToolCall) (world : World) :
    (partitionToolBatches spec.concurrentTools (canBatch spec)
        toolCalls.zipIdx).flatten = toolCalls.zipIdx ∧
      (∀ batch ∈ partitionToolBatches spec.concurrentTools (canBatch spec)
        toolCalls.zipIdx, SafeBatch spec batch) ∧
        ∀ (state : ExecuteState World Local) (executed : ExecutedTools),
          state.Reached runTool spec toolCalls world → state.Returns executed →
            Aligned toolCalls state.shared.log executed := by
  refine ⟨partitionToolBatches_flatten spec _, partitionToolBatches_safe spec _, ?_⟩
  intro state executed reached returns
  obtain ⟨done, progress⟩ := ExecuteProgress.run reached
  exact progress.aligned returns

def echoOutcome (toolCall : ToolCall) : CallOutcome :=
  ⟨.text toolCall.arguments, "ok", "", none, none, none⟩

/-- A tool that ends at once, with the arguments of its call. -/
def echoTool : RunTool Unit ToolCall where
  start toolCall := toolCall
  moves _ _ _ _ := False
  ends _ toolCall _ taskEnd :=
    taskEnd = .returned (echoOutcome toolCall)

theorem echoTool_finish (front back : List (ToolTask ToolCall))
    (call : ToolCall × Nat) (log : List LogEntry) :
    Tasks.Step (TaskMove echoTool)
      ⟨⟨(), log⟩, front ++ ⟨call, .running call.1⟩ :: back⟩
      ⟨⟨(), log ++ [⟨call, .returned (echoOutcome call.1)⟩]⟩,
        front ++ ⟨call, .ended (.returned (echoOutcome call.1))⟩ :: back⟩ :=
  .task (.finish rfl)

theorem lastCallFirst_aligned :
    Aligned [⟨"a", "read", "1"⟩, ⟨"b", "read", "2"⟩]
      [⟨(⟨"b", "read", "2"⟩, 1), .returned ⟨.text "2", "ok", "", none, none, none⟩⟩,
        ⟨(⟨"a", "read", "1"⟩, 0), .returned ⟨.text "1", "ok", "", none, none, none⟩⟩]
      ⟨[.text "1", .text "2"], [⟨"read", "ok", ""⟩, ⟨"read", "ok", ""⟩], none,
        .empty, .empty⟩ := by
  refine (executeTools_aligned echoTool ⟨true, fun _ => some ⟨true⟩⟩ _ ()).2.2
    ⟨⟨(), _⟩, [], [⟨.text "1", ⟨"read", "ok", ""⟩, none, "a", none, none⟩,
      ⟨.text "2", ⟨"read", "ok", ""⟩, none, "b", none, none⟩], []⟩ _ ?_ ⟨rfl, rfl, rfl⟩
  refine .head .await (.head (.task (echoTool_finish [_] [] _ [])) ?_)
  exact .head (.task (echoTool_finish [] [_] _ [_])) (.single (.extend rfl))

end AgentSchedBench.Agent
