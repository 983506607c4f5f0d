import AgentSchedBench.Replay.ContainerAgent

/-!
# Requests and responses

Without ids a response belongs to its request because there is one request on
its way.  That is lost where a call ends and leaves the agent with a request
that has not been answered.
-/

namespace AgentSchedBench.Replay

open Pipes
open Trace (Text)

/-! ## Executed at most once -/

namespace AgentState

/-- The requests that have been executed or may still be. -/
def sent (state : AgentState) : List RequestCall :=
  state.executed ++ (state.left ++ state.unread)

end AgentState

/-- The call of a phase. -/
def CallPhase.current : CallPhase → Option RequestCall
  | idle => none
  | top call _ | restartingFirst call | restartingAfter call _ _
  | waiting call _ | skipping call _ => some call

/-- The call of a phase before its request is written. -/
def CallPhase.unsent : CallPhase → Option RequestCall
  | top call _ | restartingFirst call => some call
  | _ => none

/-- Calls have their own numbers, and one request if it is not repeated. -/
structure AgentState.Once (state : AgentState) : Prop where
  numbered : ∀ call ∈ state.sent, call.number < state.calls
  current : ∀ call ∈ state.phase.current, call.number < state.calls
  once : ∀ call : RequestCall, ¬ call.Idempotent →
    state.sent.count call ≤ 1
  unsent : ∀ call ∈ state.phase.unsent, ¬ call.Idempotent →
    state.sent.count call = 0

namespace AgentState.Once

variable {state next : AgentState}

/-- Nothing is sent, and the phase is one of the same call. -/
theorem keep (once : state.Once) (calls : state.calls ≤ next.calls)
    (fewer : ∀ call, next.sent.count call ≤ state.sent.count call)
    (current : ∀ call ∈ next.phase.current, call.number < next.calls)
    (unsent : ∀ call ∈ next.phase.unsent, ¬ call.Idempotent →
      state.sent.count call = 0) :
    next.Once where
  numbered := by
    intro call member
    have wasSent : 0 < state.sent.count call :=
      (List.count_pos_iff.mpr member).trans_le (fewer call)
    exact (once.numbered call (List.count_pos_iff.mp wasSent)).trans_le calls
  current := current
  once := fun call notIdempotent =>
    (fewer call).trans (once.once call notIdempotent)
  unsent := fun call isUnsent notIdempotent =>
    Nat.eq_zero_of_le_zero
      ((fewer call).trans_eq (unsent call isUnsent notIdempotent))

/-- A call goes on after its request has been written. -/
theorem goOn (once : state.Once) (calls : next.calls = state.calls)
    (fewer : ∀ call, next.sent.count call ≤ state.sent.count call)
    (current : ∀ call ∈ next.phase.current, call ∈ state.phase.current)
    (unsent : next.phase.unsent = none) : next.Once := by
  apply once.keep calls.ge fewer
  · intro call isCurrent
    rw [calls]
    exact once.current call (current call isCurrent)
  · rw [unsent]
    nofun

end AgentState.Once

section Sent

variable (state : AgentState)

theorem count_sent (call : RequestCall) :
    state.sent.count call =
      state.executed.count call +
        (state.left.count call + state.unread.count call) := by
  rw [AgentState.sent, List.count_append, List.count_append]

theorem sent_stop (phase : CallPhase) (call : RequestCall) :
    (state.stop phase).sent.count call = state.sent.count call := by
  simp [AgentState.sent, AgentState.stop, AgentState.unread]

theorem sent_finish (call : RequestCall) (reply : Reply) :
    (state.finish call reply).sent = state.sent := rfl

theorem sent_afterLine (call : RequestCall) (skipped : Nat)
    (line : AgentLine) :
    (state.afterLine call skipped line).sent = state.sent := by
  rw [AgentState.afterLine]
  split
  · rfl
  · split <;> rfl

/-- What is sent to a new agent is lost with the old one. -/
theorem sent_fresh (phase : CallPhase) (call : RequestCall) :
    (AgentState.sent
        { state with
          phase := phase
          process := some Server.fresh }).count call ≤
      state.sent.count call := by
  rw [count_sent, count_sent]
  exact Nat.add_le_add_left
    (Nat.add_le_add_left (Nat.zero_le _) _) _

theorem sent_write (process : AgentProcess) (call : RequestCall)
    (attempt : Nat) (fewer : List.Sublist process.unread state.unread)
    (other : RequestCall) :
    (state.write process call attempt).sent.count other ≤
      state.sent.count other + [call].count other := by
  have written := (Server.unread_send process call).count_le other
  have before := fewer.count_le other
  rw [List.count_append] at written
  rw [count_sent, count_sent]
  simp only [AgentState.write, AgentState.unread] at *
  omega

theorem sent_lines {process : AgentProcess}
    (isProcess : state.process = some process) (lines : List AgentLine) :
    AgentState.sent
        { state with process := some { process with lines := lines } } =
      state.sent := by
  rw [AgentState.sent, AgentState.sent, AgentState.unread, AgentState.unread,
    isProcess]
  rfl

end Sent

namespace AgentState.Once

variable {state next : AgentState}

/-- The request of the call is written once. -/
theorem write (once : state.Once) {call : RequestCall}
    (current : call ∈ state.phase.current)
    (unsent : call ∈ state.phase.unsent) {process : AgentProcess}
    (fewer : List.Sublist process.unread state.unread) (attempt : Nat) :
    (state.write process call attempt).Once where
  numbered := by
    intro other member
    have more := sent_write state process call attempt fewer other
    have isSent := List.count_pos_iff.mpr member
    by_cases same : other = call
    · rw [same]
      exact once.current call current
    · rw [List.count_singleton, if_neg (by simpa using Ne.symm same)] at more
      exact once.numbered other (List.count_pos_iff.mp (by omega))
  current := by
    rintro other ⟨⟩
    exact once.current call current
  once := by
    intro other notIdempotent
    have more := sent_write state process call attempt fewer other
    by_cases same : other = call
    · subst same
      rw [once.unsent other unsent notIdempotent, List.count_singleton_self]
        at more
      exact more
    · rw [List.count_singleton, if_neg (by simpa using Ne.symm same)] at more
      exact more.trans (once.once other notIdempotent)
  unsent := nofun

/-- The lines of an agent are not requests. -/
theorem lines (once : state.Once) {process : AgentProcess}
    (isProcess : state.process = some process) (lines : List AgentLine) :
    AgentState.Once
      { state with process := some { process with lines := lines } } where
  numbered := by
    rw [sent_lines state isProcess]
    exact once.numbered
  current := once.current
  once := by
    rw [sent_lines state isProcess]
    exact once.once
  unsent := by
    rw [sent_lines state isProcess]
    exact once.unsent

theorem afterLine (once : state.Once) {call : RequestCall}
    (current : call ∈ state.phase.current) (skipped : Nat)
    (line : AgentLine) : (state.afterLine call skipped line).Once := by
  refine once.goOn ?_ ?_ ?_ ?_
  · rw [AgentState.afterLine]
    split
    · rfl
    · split <;> rfl
  · intro other
    rw [sent_afterLine]
  · rw [AgentState.afterLine]
    split
    · nofun
    · split
      · nofun
      · rintro other ⟨⟩
        exact current
  · rw [AgentState.afterLine]
    split
    · rfl
    · split <;> rfl

end AgentState.Once

theorem AgentStep.once {state next : AgentState} {event : AgentEvent}
    (step : AgentStep state event next) (once : state.Once) : next.Once := by
  cases step with
  | call tool isIdle =>
      refine once.keep (Nat.le_succ _) (fun _ => Nat.le_refl _) ?_ ?_
      · rintro call ⟨⟩
        exact Nat.lt_succ_self _
      · rintro call ⟨⟩ _
        rw [List.count_eq_zero]
        intro member
        exact Nat.lt_irrefl _ (once.numbered _ member)
  | opens isIdle =>
      refine once.goOn rfl (fun call => ?_) (by nofun) rfl
      rw [← sent_stop state .idle call]
      exact sent_fresh (state.stop .idle) .idle call
  | closes isIdle =>
      exact once.goOn rfl (fun call => (sent_stop state _ call).le)
        (by nofun) rfl
  | @writes call attempt process isTop more alive =>
      apply once.write
      · rw [isTop]
        rfl
      · rw [isTop]
        rfl
      · rw [AgentState.unread, alive]
  | unencodable isTop =>
      exact once.goOn rfl (fun _ => Nat.le_refl _) (by nofun) rfl
  | @restarts call isTop dead =>
      refine once.keep (Nat.le_refl _)
        (fun other => (sent_stop state _ other).le) ?_ ?_
      · rintro other ⟨⟩
        exact once.current call (by rw [isTop]; rfl)
      · rintro other ⟨⟩
        exact once.unsent call (by rw [isTop]; rfl)
  | givesUp isTop dead =>
      exact once.goOn rfl (fun _ => Nat.le_refl _) (by nofun) rfl
  | exhausted isTop noMore =>
      exact once.goOn rfl (fun _ => Nat.le_refl _) (by nofun) rfl
  | startsFirst restarting =>
      apply once.write
      · rw [restarting]
        rfl
      · rw [restarting]
        rfl
      · exact List.nil_sublist _
  | @startsAgain call attempt failure restarting idempotent =>
      refine once.keep (Nat.le_refl _) (sent_fresh state _) ?_ ?_
      · rintro other ⟨⟩
        exact once.current call (by rw [restarting]; rfl)
      · rintro other ⟨⟩ notIdempotent
        exact absurd idempotent notIdempotent
  | startsInVain restarting notIdempotent =>
      exact once.goOn rfl (sent_fresh state .idle) (by nofun) rfl
  | startFailsFirst restarting =>
      exact once.goOn rfl (fun _ => Nat.le_refl _) (by nofun) rfl
  | startFailsAfter restarting =>
      exact once.goOn rfl (fun _ => Nat.le_refl _) (by nofun) rfl
  | @readsFirst call attempt process line rest waits isProcess isNext =>
      refine (once.lines isProcess rest).afterLine ?_ _ _
      dsimp only
      rw [waits]
      rfl
  | @readsNext call skipped process line rest skips isProcess isNext =>
      refine (once.lines isProcess rest).afterLine ?_ _ _
      dsimp only
      rw [skips]
      rfl
  | @endsFirst call attempt process waits isProcess ended allRead =>
      refine once.goOn rfl (fun other => (sent_stop state _ other).le) ?_ rfl
      rintro other ⟨⟩
      rw [waits]
      rfl
  | @endsNext call skipped process skips isProcess ended allRead =>
      refine once.afterLine ?_ _ _
      rw [skips]
      rfl
  | @failsFirst call attempt waits error =>
      refine once.goOn rfl (fun other => (sent_stop state _ other).le) ?_ rfl
      rintro other ⟨⟩
      rw [waits]
      rfl
  | failsNext skips error =>
      exact once.goOn rfl (fun _ => Nat.le_refl _) (by nofun) rfl
  | overlong awaits isProcess isNext tail =>
      exact (once.lines isProcess _).goOn rfl (fun _ => Nat.le_refl _)
        (by nofun) rfl
  | cancelled suspended notTop =>
      exact once.goOn rfl (fun _ => Nat.le_refl _) (by nofun) rfl
  | @agent process after act started isProcess step =>
      refine once.keep (Nat.le_refl _) (fun call => ?_) once.current
        once.unsent
      have fewer := step.unread_sublist.count_le call
      rw [List.count_append] at fewer
      rw [count_sent, count_sent, AgentState.unread, AgentState.unread,
        isProcess, List.count_append]
      dsimp only
      omega
  | @leftAgent front back call isLeft =>
      refine once.keep (Nat.le_refl _) (fun other => ?_) once.current
        once.unsent
      rw [count_sent, count_sent, isLeft]
      simp only [List.count_append, List.count_cons, AgentState.unread,
        List.count_nil]
      omega

/-- No request is executed twice in a call that does not repeat it. -/
theorem atMostOnce_of_reached {meets : AgentState → AgentEvent → Prop}
    {state : AgentState} (reached : state.Reached meets) :
    AtMostOnce state := by
  have once : state.Once := by
    induction reached with
    | refl =>
        exact ⟨by nofun, by nofun, fun _ _ => Nat.zero_le _, by nofun⟩
    | tail _ last induction =>
        obtain ⟨event, -, step⟩ := last
        exact step.once induction
  intro call notIdempotent
  have sent := once.once call notIdempotent
  rw [count_sent] at sent
  omega

/-! ## In step -/

/-- What an agent owes is what the call waits for. -/
structure AgentState.InStep (state : AgentState) : Prop where
  settled : ∀ process ∈ state.process, process.Settled
  quiet : ∀ process ∈ state.process, ∀ line ∈ process.lines,
    line.origin = none → ¬ LooksLikeObject line.text
  owed : ∀ process ∈ state.process,
    List.Sublist process.owed state.phase.awaits.toList
  corresponds : Corresponds state

/--
The condition under which responses belong to their requests: no call is
cancelled and no pipe fails while the agent has the request and is kept, no
line is too long or is written besides the responses and looks like an object,
and the last line that may be read after those that were skipped is a response.
-/
def Undisturbed (state : AgentState) : AgentEvent → Prop
  | .cancelled => state.phase.awaits = none
  | .pipeFails _ => ∀ call skipped, state.phase ≠ .skipping call skipped
  | .overlong _ => False
  | .agent (.emits text) => ¬ LooksLikeObject text
  | .readsLine =>
      ∀ call, state.phase = .skipping call (maxSkipped - 1) →
        ∀ process ∈ state.process, ∀ line ∈ process.lines.head?,
          line.origin ≠ none
  | _ => True

namespace AgentState.InStep

variable {state next : AgentState}

/-- A call ends with a response of its own. -/
theorem finish (inStep : state.InStep) {call : RequestCall} {reply : Reply}
    (nothing : ∀ process ∈ state.process, process.owed = [])
    (isOwn : ∀ line response, reply = .parsed line response →
      line.origin = some call) :
    (state.finish call reply).InStep where
  settled := inStep.settled
  quiet := inStep.quiet
  owed := by
    intro process isProcess
    rw [nothing process isProcess]
    exact List.nil_sublist _
  corresponds := by
    intro other line response member
    rcases List.mem_append.mp member with old | new
    · exact inStep.corresponds other line response old
    · obtain ⟨rfl, isReply⟩ := Prod.mk.inj (List.mem_singleton.mp new)
      exact isOwn line response isReply.symm

/-- Nothing is owed by an agent that has been stopped. -/
theorem stop (inStep : state.InStep) (phase : CallPhase) :
    (state.stop phase).InStep where
  settled := by nofun
  quiet := by nofun
  owed := by nofun
  corresponds := inStep.corresponds

/-- A new agent owes nothing. -/
theorem fresh (corresponds : Corresponds state)
    (isFresh : state.process = some Server.fresh) : state.InStep where
  settled := by
    rw [isFresh]
    rintro process ⟨⟩
    nofun
  quiet := by
    rw [isFresh]
    rintro process ⟨⟩
    nofun
  owed := by
    rw [isFresh]
    rintro process ⟨⟩
    exact List.nil_sublist _
  corresponds := corresponds

/-- The request is written to an agent that owes nothing. -/
theorem write (inStep : state.InStep) {process : AgentProcess}
    (isProcess : state.process = some process)
    (nothing : process.owed = []) (call : RequestCall) (attempt : Nat) :
    (state.write process call attempt).InStep where
  settled := by
    rintro after ⟨⟩
    exact (inStep.settled process isProcess).send call
  quiet := by
    rintro after ⟨⟩
    rw [Server.lines_send]
    exact inStep.quiet process isProcess
  owed := by
    rintro after ⟨⟩
    exact Server.owed_send nothing call
  corresponds := inStep.corresponds

/-- Before the request is written, and between calls, nothing is owed. -/
theorem nothing (inStep : state.InStep) (noCall : state.phase.awaits = none) :
    ∀ process ∈ state.process, process.owed = [] := by
  intro process isProcess
  have owed := inStep.owed process isProcess
  rw [noCall] at owed
  exact List.sublist_nil.mp owed

/-- The call ends at a line if nothing is owed then. -/
theorem afterLine (inStep : state.InStep) {call : RequestCall}
    (awaits : state.phase.awaits = some call) {skipped : Nat}
    {line : AgentLine}
    (ends : skipped = maxSkipped →
      ∀ process ∈ state.process, process.owed = [])
    (object : LooksLikeObject line.text →
      line.origin = some call ∧
        ∀ process ∈ state.process, process.owed = []) :
    (state.afterLine call skipped line).InStep := by
  rw [AgentState.afterLine]
  split
  · next isLast => exact inStep.finish (ends isLast) (by nofun)
  · split
    · next isObject =>
        apply inStep.finish (object isObject).2
        intro read response isReply
        rw [parseLine] at isReply
        split at isReply
        · cases isReply
          exact (object isObject).1
        · cases isReply
    · refine ⟨inStep.settled, inStep.quiet, ?_, inStep.corresponds⟩
      intro process isProcess
      have owed := inStep.owed process isProcess
      rwa [awaits] at owed

/-- A line is taken from an agent. -/
theorem read (inStep : state.InStep) {call : RequestCall}
    (awaits : state.phase.awaits = some call) {process : AgentProcess}
    (isProcess : state.process = some process) {line : AgentLine}
    {rest : List AgentLine} (isNext : process.lines = line :: rest)
    {skipped : Nat} (last : skipped = maxSkipped → line.origin ≠ none) :
    (AgentState.afterLine
      { state with process := some { process with lines := rest } }
      call skipped line).InStep := by
  have owed := inStep.owed process isProcess
  rw [awaits] at owed
  have answered {answered : RequestCall}
      (isAnswer : line.origin = some answered) :
      answered = call ∧
        Server.owed { process with lines := rest } = [] :=
    Server.answer_of_owed owed isNext isAnswer
  have nothing (isAnswer : line.origin ≠ none) :
      Server.owed { process with lines := rest } = [] := by
    obtain ⟨request, isRequest⟩ := Option.ne_none_iff_exists'.mp isAnswer
    exact (answered isRequest).2
  have isRead : AgentState.InStep
      { state with process := some { process with lines := rest } } := by
    refine ⟨?_, ?_, ?_, inStep.corresponds⟩
    · rintro after ⟨⟩
      exact inStep.settled process isProcess
    · rintro after ⟨⟩ other member
      apply inStep.quiet process isProcess other
      rw [isNext]
      exact List.mem_cons_of_mem _ member
    · rintro after ⟨⟩
      dsimp only
      rw [awaits]
      by_cases stray : line.origin = none
      · rwa [← Server.owed_of_stray isNext stray]
      · rw [nothing stray]
        exact List.nil_sublist _
  apply isRead.afterLine awaits
  · rintro isLast after ⟨⟩
    exact nothing (last isLast)
  · intro isObject
    have isAnswer : line.origin ≠ none := by
      intro stray
      refine inStep.quiet process isProcess line ?_ stray isObject
      rw [isNext]
      exact List.mem_cons_self
    obtain ⟨request, isRequest⟩ := Option.ne_none_iff_exists'.mp isAnswer
    refine ⟨by rw [isRequest, (answered isRequest).1], ?_⟩
    rintro after ⟨⟩
    exact nothing isAnswer

end AgentState.InStep

theorem AgentStep.inStep {state next : AgentState} {event : AgentEvent}
    (step : AgentStep state event next)
    (undisturbed : Undisturbed state event) (inStep : state.InStep) :
    next.InStep := by
  cases step with
  | call tool isIdle =>
      refine ⟨inStep.settled, inStep.quiet, ?_, inStep.corresponds⟩
      intro process isProcess
      rw [inStep.nothing (by rw [isIdle]; rfl) process isProcess]
      exact List.nil_sublist _
  | opens isIdle => exact .fresh inStep.corresponds rfl
  | closes isIdle => exact inStep.stop .idle
  | writes isTop more alive =>
      exact inStep.write alive
        (inStep.nothing (by rw [isTop]; rfl) _ alive) _ _
  | unencodable isTop =>
      exact inStep.finish (inStep.nothing (by rw [isTop]; rfl)) (by nofun)
  | restarts isTop dead => exact inStep.stop _
  | givesUp isTop dead =>
      exact inStep.finish (inStep.nothing (by rw [isTop]; rfl)) (by nofun)
  | exhausted isTop noMore =>
      exact inStep.finish (inStep.nothing (by rw [isTop]; rfl)) (by nofun)
  | @startsFirst call restarting =>
      have ready : AgentState.InStep
          { state with process := some Server.fresh } :=
        .fresh inStep.corresponds rfl
      exact ready.write rfl rfl call 0
  | startsAgain restarting idempotent => exact .fresh inStep.corresponds rfl
  | @startsInVain call attempt failure restarting notIdempotent =>
      have finished : (state.finish call failure.reply).InStep :=
        inStep.finish (inStep.nothing (by rw [restarting]; rfl))
          (by cases failure <;> nofun)
      exact .fresh finished.corresponds rfl
  | startFailsFirst restarting =>
      exact inStep.finish (inStep.nothing (by rw [restarting]; rfl))
        (by nofun)
  | startFailsAfter restarting =>
      exact inStep.finish (inStep.nothing (by rw [restarting]; rfl))
        (by nofun)
  | readsFirst waits isProcess isNext =>
      exact inStep.read (by rw [waits]; rfl) isProcess isNext (by nofun)
  | @readsNext call skipped process line rest skips isProcess isNext =>
      refine inStep.read (by rw [skips]; rfl) isProcess isNext ?_
      intro isLast
      have before : skipped = maxSkipped - 1 := by omega
      refine undisturbed call (by rw [skips, before]) process isProcess line ?_
      rw [isNext]
      rfl
  | endsFirst waits isProcess ended allRead => exact inStep.stop _
  | @endsNext call skipped process skips isProcess ended allRead =>
      refine inStep.afterLine (by rw [skips]; rfl) ?_ ?_
      · intro _ other isOther
        cases isProcess.symm.trans isOther
        exact (inStep.settled process isProcess).owed ended allRead
      · nofun
  | failsFirst waits error => exact inStep.stop _
  | failsNext skips error => exact absurd skips (undisturbed _ _)
  | overlong awaits isProcess isNext tail => exact undisturbed.elim
  | cancelled suspended notTop =>
      refine ⟨inStep.settled, inStep.quiet, ?_, inStep.corresponds⟩
      intro process isProcess
      rw [inStep.nothing undisturbed process isProcess]
      exact List.nil_sublist _
  | @agent process after act started isProcess step =>
      refine ⟨?_, ?_, ?_, inStep.corresponds⟩
      · rintro other ⟨⟩
        exact step.settled
      · rintro other ⟨⟩ line member stray
        rcases step.lines member stray with old | isAct
        · exact inStep.quiet process isProcess line old stray
        · subst isAct
          exact undisturbed
      · rintro other ⟨⟩
        exact step.owed_sublist.trans (inStep.owed process isProcess)
  | leftAgent isLeft => exact ⟨inStep.settled, inStep.quiet, inStep.owed,
      inStep.corresponds⟩

theorem corresponds_of_reached {state : AgentState}
    (reached : state.Reached Undisturbed) : Corresponds state := by
  have inStep : state.InStep := by
    induction reached with
    | refl => exact ⟨by nofun, by nofun, by nofun, by nofun⟩
    | tail _ last induction =>
        obtain ⟨event, undisturbed, step⟩ := last
        exact step.inStep undisturbed induction
  exact inStep.corresponds

/--
Requests that are not repeated are executed at most once in every run, and
responses belong to their requests in each run that is not disturbed.
-/
theorem requests_correspond (state : AgentState) :
    (state.Reached (fun _ _ => True) → AtMostOnce state) ∧
      (state.Reached Undisturbed → Corresponds state) :=
  ⟨atMostOnce_of_reached, corresponds_of_reached⟩

/-! ## Two runs -/

theorem AgentState.Reached.next
    {meets : AgentState → AgentEvent → Prop} {state next : AgentState}
    {event : AgentEvent} (reached : state.Reached meets)
    (step : AgentStep state event next) (holds : meets state event) :
    next.Reached meets :=
  Relation.ReflTransGen.tail reached ⟨event, holds, step⟩

/-- The first command of an agent is executed. -/
def executing : AgentState where
  calls := 1
  phase := .waiting ⟨0, "exec"⟩ 0
  process := some ⟨[], some ⟨0, "exec"⟩, [], false⟩
  left := []
  executed := [⟨0, "exec"⟩]
  returned := []

theorem executing_reached {meets : AgentState → AgentEvent → Prop}
    (calm : ∀ state event, Undisturbed state event → meets state event) :
    executing.Reached meets := by
  have start : AgentState.start.Reached meets := .refl
  have called := start.next (.call "exec" rfl) (calm _ _ trivial)
  have restarting := called.next (.restarts rfl (by nofun)) (calm _ _ trivial)
  have waiting := restarting.next (.startsFirst rfl) (calm _ _ trivial)
  exact waiting.next (.agent rfl .reads) (calm _ _ trivial)

/-- The response to a command without a result. -/
def emptyResponse : Text := ['{', '}']

theorem loads_emptyResponse :
    JsonText.loads emptyResponse = some (.obj []) := by
  have wellFormed : JsonText.WellFormed (.obj []) :=
    ⟨List.nodup_nil, trivial⟩
  have isText : emptyResponse = JsonText.dumps (.obj []) := by
    rw [JsonText.dumps]
    rfl
  rw [isText, JsonText.loads_dumps wellFormed]

theorem afterLine_emptyResponse (state : AgentState) (call : RequestCall)
    (origin : Option RequestCall) :
    state.afterLine call 0 ⟨emptyResponse, origin⟩ =
      state.finish call (.parsed ⟨emptyResponse, origin⟩ (.obj [])) := by
  have isStripped : Trace.strip emptyResponse = emptyResponse := by decide
  have isObject : LooksLikeObject emptyResponse := by
    rw [LooksLikeObject, isStripped]
    rfl
  rw [AgentState.afterLine, if_neg (by decide), if_pos isObject, parseLine]
  dsimp only
  rw [isStripped, loads_emptyResponse]

/-- A run in which the response is read. -/
theorem answered_corresponds :
    ∃ state : AgentState,
      state.returned.length = 1 ∧ AtMostOnce state ∧ Corresponds state := by
  have answered {meets : AgentState → AgentEvent → Prop}
      (calm : ∀ state event, Undisturbed state event → meets state event) :=
    ((executing_reached calm).next
      (.agent rfl (.answers emptyResponse)) (calm _ _ trivial)).next
        (.readsFirst rfl rfl rfl) (calm _ _ (by nofun))
  refine ⟨_, ?_, (requests_correspond _).1 (answered fun _ _ _ => trivial),
    (requests_correspond _).2 (answered fun _ _ calm => calm)⟩
  rw [afterLine_emptyResponse]
  rfl

/-- The call is cancelled, and the next one gets its response. -/
theorem cancelled_not_corresponds :
    ∃ state : AgentState,
      state.Reached (fun _ _ => True) ∧ ¬ Corresponds state := by
  have executing : executing.Reached fun _ _ => True :=
    executing_reached fun _ _ _ => trivial
  have cancelled := executing.next (.cancelled (by nofun) (by nofun)) trivial
  have answered := cancelled.next
    (.agent rfl (.answers emptyResponse)) trivial
  have called := answered.next (.call "exec" rfl) trivial
  have written := called.next (.writes rfl (by decide) rfl) trivial
  have read := written.next (.readsFirst rfl rfl rfl) trivial
  refine ⟨_, read, ?_⟩
  intro corresponds
  rw [afterLine_emptyResponse] at corresponds
  have same := corresponds _ _ _ List.mem_cons_self
  exact absurd same (by decide)

end AgentSchedBench.Replay
