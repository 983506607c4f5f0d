import AgentSchedBench.Library.Dict
import AgentSchedBench.Library.Tasks
import AgentSchedBench.Agent.Dispatch
import Mathlib.Data.List.TakeWhile

/-!
# The reply of a run

`SessionRunner.run` publishes its prompt and waits until the collector has
seen a message under the key of the prompt's channel and chat.  Turns for the
results of subagents run beside the prompt's turn and reply under the channel
and chat of their origin.

A turn that raises replies under the channel and chat of the inbound message,
which is the channel `system`.  The contents that are collected under one key
are joined.
-/

namespace AgentSchedBench.Agent

/-! ## Messages -/

structure OutboundMessage where
  channel : String
  chatId : String
  content : String
  toolMessage : Bool
  streamDelta : Bool
deriving DecidableEq, Repr

/-- The key that the collector takes for a message. -/
def OutboundMessage.key (message : OutboundMessage) : String :=
  message.channel ++ ":" ++ message.chatId

/-- The reply of `_process_message` to a system message. -/
def systemReply (message : DispatchedMessage)
    (finalContent : Option String) : OutboundMessage where
  channel := message.address.1
  chatId := message.address.2
  content :=
    match finalContent with
    | some content =>
        if content.isEmpty then "Background task completed." else content
    | none => "Background task completed."
  toolMessage := false
  streamDelta := false

/-- What `_dispatch` publishes after an exception. -/
def errorReply (message : DispatchedMessage) : OutboundMessage where
  channel := message.channel
  chatId := message.chatId
  content := "Sorry, I encountered an error."
  toolMessage := false
  streamDelta := false

/-- What the message tool publishes. -/
def toolOutbound (channel chatId content : String) : OutboundMessage where
  channel := channel
  chatId := chatId
  content := content
  toolMessage := true
  streamDelta := false

/-- The arguments of `SessionRunner.run`. -/
structure RunRequest where
  sessionKey : String
  channel : String
  prompt : String
deriving DecidableEq, Repr

namespace RunRequest

variable (request : RunRequest)

def chatId : String :=
  match splitColon request.sessionKey with
  | some (_, rest) => rest
  | none => request.sessionKey

def resultKey : String :=
  request.channel ++ ":" ++ request.chatId

/-- The message that `run` publishes. -/
def message : DispatchedMessage where
  channel := "system"
  senderId := "user"
  chatId := request.channel ++ ":" ++ request.chatId
  content := request.prompt
  media := []
  sessionKeyOverride := some request.sessionKey

end RunRequest

/-- Where a subagent was started, and what is announced of it. -/
structure Announcement where
  channel : String
  chatId : String
  content : String
deriving DecidableEq, Repr

namespace Announcement

variable (announcement : Announcement)

def requesterKey : String :=
  announcement.channel ++ ":" ++ announcement.chatId

/-- `_announce_result` -/
def message : DispatchedMessage where
  channel := "system"
  senderId := "subagent"
  chatId := announcement.channel ++ ":" ++ announcement.chatId
  content := announcement.content
  media := []
  sessionKeyOverride := none

end Announcement

/-! ## The run -/

/-- A turn, and the last message it has published. -/
inductive TurnPhase where
  | running
  | ended (final : Option OutboundMessage)
deriving DecidableEq, Repr

/--
The turn of the prompt, the bus, the collector with the event of the result
key, and what `wait_for_result` has returned.
-/
structure RequestState where
  prompt : TurnPhase
  outbound : List OutboundMessage
  results : Dict String String
  done : Bool
  returned : Option (Option String)

def RequestState.start : RequestState where
  prompt := .running
  outbound := []
  results := Dict.empty
  done := false
  returned := none

def RequestState.publish (state : RequestState) (message : OutboundMessage) :
    RequestState :=
  { state with outbound := state.outbound ++ [message] }

/-- The body of `ResultCollector._run_loop`. -/
def RequestState.collect (resultKey : String) (state : RequestState)
    (message : OutboundMessage) : RequestState :=
  if message.toolMessage then state
  else
    let prev := (state.results.get message.key).getD ""
    { state with
      results := state.results.set message.key (prev ++ message.content)
      done :=
        state.done || (!message.streamDelta && message.key == resultKey) }

/-- Who moves.  Only the other turns have a place of their own. -/
inductive Party where
  | promptTurn
  | collector
  | waiter
  | otherTurn (announcement : Announcement) (phase : TurnPhase)
deriving DecidableEq, Repr

/--
What may happen next.  A move is covered unless a turn ends without a reply,
or a turn of another message replies under the result key before the run has
returned.
-/
inductive RunMove (request : RunRequest) :
    Bool → RequestState → Party → RequestState → Party → Prop where
  | promptReplies {state : RequestState} (running : state.prompt = .running)
      (finalContent : Option String) :
      RunMove request true state .promptTurn
        { state.publish (systemReply request.message finalContent) with
          prompt := .ended (some (systemReply request.message finalContent)) }
        .promptTurn
  | promptRaises {state : RequestState} (running : state.prompt = .running) :
      RunMove request false state .promptTurn
        { state.publish (errorReply request.message) with
          prompt := .ended (some (errorReply request.message)) }
        .promptTurn
  | promptCancelled {state : RequestState} (running : state.prompt = .running) :
      RunMove request false state .promptTurn
        { state with prompt := .ended none } .promptTurn
  | promptSends {state : RequestState} (running : state.prompt = .running)
      (channel chatId content : String) :
      RunMove request true state .promptTurn
        (state.publish (toolOutbound channel chatId content)) .promptTurn
  | otherReplies {state : RequestState} {announcement : Announcement}
      (finalContent : Option String)
      (late :
        state.returned ≠ none ∨
          announcement.requesterKey ≠ request.resultKey) :
      RunMove request true state (.otherTurn announcement .running)
        (state.publish (systemReply announcement.message finalContent))
        (.otherTurn announcement
          (.ended (some (systemReply announcement.message finalContent))))
  | otherRepliesEarly {state : RequestState} {announcement : Announcement}
      (finalContent : Option String) :
      RunMove request false state (.otherTurn announcement .running)
        (state.publish (systemReply announcement.message finalContent))
        (.otherTurn announcement
          (.ended (some (systemReply announcement.message finalContent))))
  | otherRaises {state : RequestState} {announcement : Announcement} :
      RunMove request false state (.otherTurn announcement .running)
        (state.publish (errorReply announcement.message))
        (.otherTurn announcement
          (.ended (some (errorReply announcement.message))))
  | otherCancelled {state : RequestState} {announcement : Announcement} :
      RunMove request false state (.otherTurn announcement .running) state
        (.otherTurn announcement (.ended none))
  | otherSends {state : RequestState} {announcement : Announcement}
      (channel chatId content : String) :
      RunMove request true state (.otherTurn announcement .running)
        (state.publish (toolOutbound channel chatId content))
        (.otherTurn announcement .running)
  | collects {state : RequestState} {message : OutboundMessage}
      {rest : List OutboundMessage}
      (next : state.outbound = message :: rest) :
      RunMove request true state .collector
        (RequestState.collect request.resultKey
          { state with outbound := rest } message)
        .collector
  | returns {state : RequestState} (waiting : state.returned = none)
      (released : state.done = true) :
      RunMove request true state .waiter
        { state with returned := some (state.results.get request.resultKey) }
        .waiter

abbrev RequestRun := Tasks.State RequestState Party

/-- The prompt is published, and the announcements may come at any time. -/
def RequestRun.start (announcements : List Announcement) : RequestRun where
  shared := RequestState.start
  tasks :=
    [.promptTurn, .collector, .waiter] ++
      announcements.map fun announcement => .otherTurn announcement .running

/-- The states of a run. -/
def RequestRun.Reachable (request : RunRequest)
    (announcements : List Announcement) (run : RequestRun) : Prop :=
  Tasks.Reachable
    (fun state party later next =>
      ∃ covered, RunMove request covered state party later next)
    (RequestRun.start announcements) run

/-- Those in which no uncovered move was made. -/
def RequestRun.Covered (request : RunRequest)
    (announcements : List Announcement) (run : RequestRun) : Prop :=
  Tasks.Reachable (RunMove request true) (RequestRun.start announcements) run

/-! ## What a run is to return -/

/-- The run waits for a message that is still to be collected. -/
def RequestState.WillBeReleased (resultKey : String)
    (state : RequestState) : Prop :=
  state.returned ≠ none ∨ state.done = true ∨
    ∃ message ∈ state.outbound,
      message.key = resultKey ∧ message.toolMessage = false ∧
        message.streamDelta = false

/--
Every turn that has ended has published a final message under its requester's
key; the run returns only after the prompt's turn, is not left waiting after
it, and returns the content of that turn's final message.
-/
structure RequestRun.RepliesOwn (request : RunRequest) (run : RequestRun) :
    Prop where
  promptReplies :
    ∀ final, run.shared.prompt = .ended final →
      ∃ message, final = some message ∧ message.key = request.resultKey
  othersReply :
    ∀ announcement final,
      .otherTurn announcement (.ended final) ∈ run.tasks →
        ∃ message, final = some message ∧
          message.key = announcement.requesterKey
  notEarly : run.shared.returned ≠ none → run.shared.prompt ≠ .running
  notLeftWaiting :
    run.shared.prompt ≠ .running →
      run.shared.WillBeReleased request.resultKey
  ownContent :
    ∀ content, run.shared.returned = some content →
      ∃ message, run.shared.prompt = .ended (some message) ∧
        content = some message.content

/-! ## Keys that are built again -/

/-- What stands on both sides of the first colon is the text again. -/
theorem splitColon_join {text left right : String}
    (found : splitColon text = some (left, right)) :
    left ++ ":" ++ right = text := by
  rw [splitColon] at found
  have first := List.head?_dropWhile_not (· ≠ ':') text.toList
  have whole : text.toList.takeWhile (· ≠ ':') ++
      text.toList.dropWhile (· ≠ ':') = text.toList :=
    List.takeWhile_append_dropWhile
  split at found
  · cases found
  · rename_i char rest after
    obtain ⟨rfl, rfl⟩ := Prod.mk.inj (Option.some.inj found)
    rw [after] at first whole
    have colon : char = ':' := by simpa using first
    apply String.toList_injective
    refine Eq.trans ?_ whole
    rw [colon]
    simp

theorem splitColon_ne_none (left right : String) :
    splitColon (left ++ ":" ++ right) ≠ none := by
  rw [splitColon]
  split
  · rename_i after
    have none := List.dropWhile_eq_nil_iff.mp after ':' (by simp)
    simp at none
  · nofun

/-- The reply to a system message has the key that its chat spells. -/
theorem systemReply_key {message : DispatchedMessage} {left right : String}
    (system : message.channel = "system")
    (chat : message.chatId = left ++ ":" ++ right)
    (finalContent : Option String) :
    (systemReply message finalContent).key = left ++ ":" ++ right := by
  have isSystem : message.isSystem = true := by
    rw [InboundMessage.isSystem, system]
    rfl
  obtain ⟨⟨channel, chatId⟩, found⟩ :=
    Option.ne_none_iff_exists'.mp (splitColon_ne_none left right)
  have address : message.address = (channel, chatId) := by
    rw [InboundMessage.address, isSystem, if_pos rfl, chat, found]
    rfl
  show message.address.1 ++ ":" ++ message.address.2 = _
  rw [address]
  exact splitColon_join found

theorem promptReply_key (request : RunRequest)
    (finalContent : Option String) :
    (systemReply request.message finalContent).key = request.resultKey :=
  systemReply_key rfl rfl finalContent

theorem otherReply_key (announcement : Announcement)
    (finalContent : Option String) :
    (systemReply announcement.message finalContent).key =
      announcement.requesterKey :=
  systemReply_key rfl rfl finalContent

/-! ## How far a run is -/

/-- The messages that the collector takes for the result. -/
def pending (resultKey : String) (outbound : List OutboundMessage) :
    List OutboundMessage :=
  outbound.filter fun message =>
    !message.toolMessage && message.key == resultKey

/-- How far the reply to the prompt has come. -/
inductive Progress (request : RunRequest) (state : RequestState) : Prop where
  | running (prompt : state.prompt = .running)
      (results : state.results.get request.resultKey = none)
      (waiting : state.done = false ∧ state.returned = none)
      (nothing : pending request.resultKey state.outbound = [])
  | replied (message : OutboundMessage)
      (prompt : state.prompt = .ended (some message))
      (key : message.key = request.resultKey)
      (plain : message.toolMessage = false ∧ message.streamDelta = false)
      (results : state.results.get request.resultKey = none)
      (waiting : state.done = false ∧ state.returned = none)
      (only : pending request.resultKey state.outbound = [message])
  | collected (message : OutboundMessage)
      (prompt : state.prompt = .ended (some message))
      (key : message.key = request.resultKey)
      (results :
        state.results.get request.resultKey = some message.content)
      (released : state.done = true ∧ state.returned = none)
      (nothing : pending request.resultKey state.outbound = [])
  | returned (message : OutboundMessage)
      (prompt : state.prompt = .ended (some message))
      (key : message.key = request.resultKey)
      (content : state.returned = some (some message.content))

/-- Another turn that has ended has replied to its requester. -/
def Party.Replied (party : Party) : Prop :=
  ∀ announcement final, party = .otherTurn announcement (.ended final) →
    ∃ message, final = some message ∧
      message.key = announcement.requesterKey

theorem RunMove.replied {request : RunRequest} {state later : RequestState}
    {party next : Party} (move : RunMove request true state party later next)
    (replied : party.Replied) : next.Replied := by
  cases move with
  | otherReplies finalContent =>
      rintro announcement _ ⟨⟩
      exact ⟨_, rfl, otherReply_key _ finalContent⟩
  | otherSends => exact nofun
  | _ => exact replied

/-- The collector takes the message for the result. -/
def OutboundMessage.Answers (message : OutboundMessage)
    (resultKey : String) : Prop :=
  message.toolMessage = false ∧ message.key = resultKey

theorem pending_cons_of_answers {resultKey : String}
    {message : OutboundMessage} (answers : message.Answers resultKey)
    (rest : List OutboundMessage) :
    pending resultKey (message :: rest) =
      message :: pending resultKey rest := by
  simp [pending, answers.1, answers.2]

theorem pending_cons_of_not_answers {resultKey : String}
    {message : OutboundMessage} (other : ¬ message.Answers resultKey)
    (rest : List OutboundMessage) :
    pending resultKey (message :: rest) = pending resultKey rest := by
  rw [pending, List.filter_cons_of_neg]
  · rfl
  · simpa [OutboundMessage.Answers] using other

theorem pending_append (resultKey : String)
    (front back : List OutboundMessage) :
    pending resultKey (front ++ back) =
      pending resultKey front ++ pending resultKey back :=
  List.filter_append front back

/-- A message that is no answer changes nothing for the run. -/
theorem Progress.publish_other {request : RunRequest} {state : RequestState}
    (progress : Progress request state) {message : OutboundMessage}
    (other : ¬ message.Answers request.resultKey) :
    Progress request (state.publish message) := by
  have same : pending request.resultKey (state.outbound ++ [message]) =
      pending request.resultKey state.outbound := by
    rw [pending_append, pending_cons_of_not_answers other]
    exact List.append_nil _
  cases progress with
  | running prompt results waiting nothing =>
      exact .running prompt results waiting (same.trans nothing)
  | replied message prompt key plain results waiting only =>
      exact .replied message prompt key plain results waiting (same.trans only)
  | collected message prompt key results released nothing =>
      exact .collected message prompt key results released
        (same.trans nothing)
  | returned message prompt key content =>
      exact .returned message prompt key content

/-- The collector leaves the turn, the queue and the waiter alone. -/
theorem collect_fixed (resultKey : String) (state : RequestState)
    (message : OutboundMessage) :
    (state.collect resultKey message).prompt = state.prompt ∧
      (state.collect resultKey message).returned = state.returned ∧
      (state.collect resultKey message).outbound = state.outbound := by
  rw [RequestState.collect]
  split <;> exact ⟨rfl, rfl, rfl⟩

theorem collect_other {resultKey : String} {message : OutboundMessage}
    (other : ¬ message.Answers resultKey) (state : RequestState) :
    (state.collect resultKey message).results.get resultKey =
        state.results.get resultKey ∧
      (state.collect resultKey message).done = state.done := by
  rw [RequestState.collect]
  split
  · exact ⟨rfl, rfl⟩
  · rename_i plain
    have otherKey : message.key ≠ resultKey := by
      intro same
      exact other ⟨by simpa using plain, same⟩
    exact ⟨by simp [otherKey.symm], by simp [otherKey]⟩

theorem collect_answer {resultKey : String} {message : OutboundMessage}
    (answers : message.Answers resultKey)
    (whole : message.streamDelta = false) (state : RequestState)
    (nothing : state.results.get resultKey = none) :
    (state.collect resultKey message).results.get resultKey =
        some message.content ∧
      (state.collect resultKey message).done = true := by
  obtain ⟨plain, rfl⟩ := answers
  simp [RequestState.collect, plain, whole, nothing]

theorem Progress.collects {request : RunRequest} {state : RequestState}
    {message : OutboundMessage} {rest : List OutboundMessage}
    (progress : Progress request state)
    (next : state.outbound = message :: rest) :
    Progress request
      (RequestState.collect request.resultKey { state with outbound := rest }
        message) := by
  obtain ⟨samePrompt, sameReturned, sameOutbound⟩ :=
    collect_fixed request.resultKey { state with outbound := rest } message
  by_cases answers : message.Answers request.resultKey
  · have first := pending_cons_of_answers answers rest
    rw [← next] at first
    cases progress with
    | running _ _ _ nothing | collected _ _ _ _ _ nothing =>
        rw [nothing] at first
        cases first
    | replied reply prompt key plain results waiting only =>
        rw [only] at first
        obtain ⟨rfl, nothing⟩ := List.cons.inj first
        obtain ⟨collected, released⟩ :=
          collect_answer answers plain.2
            { state with outbound := rest } results
        exact
          .collected reply (samePrompt.trans prompt) key collected
            ⟨released, sameReturned.trans waiting.2⟩
            (by rw [sameOutbound]; exact nothing.symm)
    | returned reply prompt key content =>
        exact
          .returned reply (samePrompt.trans prompt) key
            (sameReturned.trans content)
  · obtain ⟨sameResults, sameDone⟩ :=
      collect_other answers { state with outbound := rest }
    have same := pending_cons_of_not_answers answers rest
    rw [← next] at same
    cases progress with
    | running prompt results waiting nothing =>
        exact
          .running (samePrompt.trans prompt) (sameResults.trans results)
            ⟨sameDone.trans waiting.1, sameReturned.trans waiting.2⟩
            (by rw [sameOutbound]; exact same.symm.trans nothing)
    | replied reply prompt key plain results waiting only =>
        exact
          .replied reply (samePrompt.trans prompt) key plain
            (sameResults.trans results)
            ⟨sameDone.trans waiting.1, sameReturned.trans waiting.2⟩
            (by rw [sameOutbound]; exact same.symm.trans only)
    | collected reply prompt key results released nothing =>
        exact
          .collected reply (samePrompt.trans prompt) key
            (sameResults.trans results)
            ⟨sameDone.trans released.1, sameReturned.trans released.2⟩
            (by rw [sameOutbound]; exact same.symm.trans nothing)
    | returned reply prompt key content =>
        exact
          .returned reply (samePrompt.trans prompt) key
            (sameReturned.trans content)

theorem Progress.promptReplies {request : RunRequest} {state : RequestState}
    (progress : Progress request state) (running : state.prompt = .running)
    (finalContent : Option String) :
    Progress request
      { state.publish (systemReply request.message finalContent) with
        prompt :=
          .ended (some (systemReply request.message finalContent)) } := by
  have key := promptReply_key request finalContent
  cases progress with
  | running prompt results waiting nothing =>
      refine .replied _ rfl key ⟨rfl, rfl⟩ results waiting ?_
      show pending _ (state.outbound ++ [_]) = _
      rw [pending_append, nothing, pending_cons_of_answers ⟨rfl, key⟩]
      rfl
  | replied _ prompt | collected _ prompt | returned _ prompt =>
      rw [running] at prompt
      cases prompt

theorem RunMove.progress {request : RunRequest} {state later : RequestState}
    {party next : Party} (move : RunMove request true state party later next)
    (progress : Progress request state) : Progress request later := by
  cases move with
  | promptReplies running finalContent =>
      exact progress.promptReplies running finalContent
  | promptSends | otherSends =>
      exact progress.publish_other fun answers => nomatch answers.1
  | otherReplies finalContent late =>
      rcases late with returned | otherKey
      · cases progress with
        | returned reply prompt key content =>
            exact .returned reply prompt key content
        | running _ _ waiting | replied _ _ _ _ _ waiting
        | collected _ _ _ _ waiting => exact absurd waiting.2 returned
      · apply progress.publish_other
        intro answers
        exact otherKey ((otherReply_key _ finalContent).symm.trans answers.2)
  | collects next => exact progress.collects next
  | returns waiting released =>
      cases progress with
      | collected reply prompt key results =>
          exact .returned reply prompt key (congrArg some results)
      | running _ _ unreleased | replied _ _ _ _ _ unreleased =>
          rw [unreleased.1] at released
          cases released
      | returned _ _ _ content =>
          rw [waiting] at content
          cases content

/-- A run all of whose moves are covered returns the prompt's own reply. -/
theorem RequestRun.Covered.repliesOwn {request : RunRequest}
    {announcements : List Announcement} {run : RequestRun}
    (covered : RequestRun.Covered request announcements run) :
    run.RepliesOwn request := by
  obtain ⟨progress, replied⟩ :=
    Tasks.Reachable.forall_tasks (Progress request)
      (fun _ party => Party.Replied party) covered
      (.running rfl rfl ⟨rfl, rfl⟩ rfl)
      (by
        intro party member announcement final other
        subst other
        simp [RequestRun.start] at member)
      (fun _ _ _ _ progress replied move =>
        ⟨move.progress progress, move.replied replied, fun _ => id⟩)
  have others : ∀ announcement final,
      .otherTurn announcement (.ended final) ∈ run.tasks →
        ∃ message, final = some message ∧
          message.key = announcement.requesterKey :=
    fun announcement final member =>
      replied _ member announcement final rfl
  cases progress with
  | running prompt results waiting nothing =>
      refine ⟨?_, others, ?_, fun ended => absurd prompt ended, ?_⟩
      · intro final ended
        rw [prompt] at ended
        cases ended
      · exact fun returned => absurd waiting.2 returned
      · intro content returned
        rw [waiting.2] at returned
        cases returned
  | replied message prompt key plain results waiting only =>
      have inQueue : message ∈ run.shared.outbound := by
        have member : message ∈ pending request.resultKey
            run.shared.outbound := by
          simp [only]
        exact List.mem_of_mem_filter member
      refine ⟨?_, others, ?_, ?_, ?_⟩
      · intro final ended
        cases prompt.symm.trans ended
        exact ⟨message, rfl, key⟩
      · exact fun returned => absurd waiting.2 returned
      · exact fun _ => .inr (.inr ⟨message, inQueue, key, plain⟩)
      · intro content returned
        rw [waiting.2] at returned
        cases returned
  | collected message prompt key results released nothing =>
      refine ⟨?_, others, ?_, fun _ => .inr (.inl released.1), ?_⟩
      · intro final ended
        cases prompt.symm.trans ended
        exact ⟨message, rfl, key⟩
      · exact fun returned => absurd released.2 returned
      · intro content returned
        rw [released.2] at returned
        cases returned
  | returned message prompt key content =>
      refine ⟨?_, others, ?_, ?_, ?_⟩
      · intro final ended
        cases prompt.symm.trans ended
        exact ⟨message, rfl, key⟩
      · intro _ running
        rw [prompt] at running
        cases running
      · intro _
        left
        rw [content]
        nofun
      · intro other returned
        cases content.symm.trans returned
        exact ⟨message, prompt, rfl⟩

/-- A benchmark run. -/
def fixBug : RunRequest where
  sessionKey := "eval:task"
  channel := "cli"
  prompt := "Fix the bug."

/-- The prompt's turn has ended with a message. -/
def RequestState.promptEnded (message : OutboundMessage) : RequestState :=
  { RequestState.start.publish message with prompt := .ended (some message) }

/-- The collector has taken that message. -/
def RequestState.promptCollected (message : OutboundMessage) :
    RequestState :=
  RequestState.collect fixBug.resultKey
    { RequestState.promptEnded message with outbound := [] } message

/-- The reply of the turn. -/
def fixedReply : OutboundMessage :=
  systemReply fixBug.message (some "Fixed.")

/-- The parties of a run without announcements. -/
def lonely (state : RequestState) : RequestRun :=
  ⟨state, [.promptTurn, .collector, .waiter]⟩

section Lonely

variable {moves : RequestState → Party → RequestState → Party → Prop}
  {state later : RequestState}

theorem lonely_prompt (move : moves state .promptTurn later .promptTurn) :
    Tasks.Reachable moves (lonely state) (lonely later) :=
  Tasks.Reachable.move [] [Party.collector, Party.waiter] move

theorem lonely_collector (move : moves state .collector later .collector) :
    Tasks.Reachable moves (lonely state) (lonely later) :=
  Tasks.Reachable.move [Party.promptTurn] [Party.waiter] move

theorem lonely_waiter (move : moves state .waiter later .waiter) :
    Tasks.Reachable moves (lonely state) (lonely later) :=
  Tasks.Reachable.move [Party.promptTurn, Party.collector] [] move

end Lonely

/-- Without announcements the prompt's reply is returned. -/
theorem fixBug_repliesOwn :
    (lonely
      { RequestState.promptCollected fixedReply with
        returned := some (some "Fixed.") }).RepliesOwn fixBug := by
  have replies : Tasks.Reachable (RunMove fixBug true)
      (lonely .start) (lonely (.promptEnded fixedReply)) :=
    lonely_prompt (RunMove.promptReplies rfl (some "Fixed."))
  have collects : Tasks.Reachable (RunMove fixBug true)
      (lonely (.promptEnded fixedReply))
      (lonely (.promptCollected fixedReply)) :=
    lonely_collector (RunMove.collects rfl)
  have returns : Tasks.Reachable (RunMove fixBug true)
      (lonely (.promptCollected fixedReply))
      (lonely
        { RequestState.promptCollected fixedReply with
          returned := some (some "Fixed.") }) :=
    lonely_waiter (RunMove.returns rfl rfl)
  have covered : RequestRun.Covered fixBug [] _ :=
    replies.trans (collects.trans returns)
  exact RequestRun.Covered.repliesOwn covered

/--
The prompt's turn raises.  Its reply goes to another key, and the run waits
although nothing is left to be collected.
-/
theorem raised_prompt_leaves_run_waiting :
    ∃ run : RequestRun, RequestRun.Reachable fixBug [] run ∧
      ¬ run.RepliesOwn fixBug := by
  have raises : RequestRun.Reachable fixBug []
      (lonely (.promptEnded (errorReply fixBug.message))) :=
    lonely_prompt ⟨false, .promptRaises rfl⟩
  refine
    ⟨lonely (.promptCollected (errorReply fixBug.message)),
      raises.trans (lonely_collector ⟨true, .collects rfl⟩), ?_⟩
  intro replies
  rcases replies.notLeftWaiting nofun with returned | released | queued
  · exact returned rfl
  · exact absurd released (by decide)
  · obtain ⟨_, member, _⟩ := queued
    cases member

end AgentSchedBench.Agent
