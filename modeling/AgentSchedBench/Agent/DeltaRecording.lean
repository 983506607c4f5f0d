import AgentSchedBench.Agent.Session
import AgentSchedBench.Agent.ToolRecords
import Mathlib

/-!
# The messages of model calls in a trace

In delta mode the trace hook keeps the hashes of the messages it has seen and
records of a call the messages that are new.  It is shown the messages of the
runner; what is sent to the model is a part of them when they do not fit in
the context window.

The JSON form of a message and the digest of it are parameters.  Several runs
of an agent are recorded by one hook.
-/

namespace AgentSchedBench.Agent

/-! ## The hook -/

section Hook

variable {ν δ : Type}

/-- The hashes, the delta of the iteration, and the deltas that are written. -/
structure DeltaHook (ν δ : Type) where
  messageSnapshotHashes : List δ
  iterMessagesDelta : Option (List ν)
  llmCalls : List (List ν)

/-- A hook that has recorded nothing. -/
def DeltaHook.start : DeltaHook ν δ where
  messageSnapshotHashes := []
  iterMessagesDelta := none
  llmCalls := []

/-- The messages in a trace. -/
def DeltaHook.recorded (hook : DeltaHook ν δ) : List ν :=
  hook.llmCalls.flatten

variable [DecidableEq δ] (normal : Message → ν) (digest : ν → δ)

/-- `_message_hash` -/
def messageHash (message : Message) : δ := digest (normal message)

/-- `_messages_delta_since_previous_snapshot`, with the hashes after it. -/
def messagesDelta (hashes : List δ) (messages : List Message) :
    Except String (List ν) × List δ :=
  let currentHashes := messages.map (messageHash normal digest)
  if currentHashes.length < hashes.length ∨
      currentHashes.take hashes.length ≠ hashes then
    (.error
      "message history is not append-only; cannot record messages_delta",
      hashes)
  else (.ok ((messages.drop hashes.length).map normal), currentHashes)

namespace DeltaHook

variable (hook : DeltaHook ν δ)

/-- `before_iteration`; what it raises is caught by `CompositeHook`. -/
def beforeIteration (messages : List Message) : DeltaHook ν δ :=
  match messagesDelta normal digest hook.messageSnapshotHashes messages with
  | (.ok delta, hashes) =>
      { hook with
        messageSnapshotHashes := hashes
        iterMessagesDelta := some delta }
  | (.error _, hashes) => { hook with messageSnapshotHashes := hashes }

/-- `after_iteration`, which raises if there is no delta. -/
def afterIteration : DeltaHook ν δ :=
  match hook.iterMessagesDelta with
  | some delta =>
      { hook with
        iterMessagesDelta := none
        llmCalls := hook.llmCalls ++ [delta] }
  | none => hook

/-- Does the hook not raise at the messages? -/
def Accepts (messages : List Message) : Prop :=
  ∃ delta,
    (messagesDelta normal digest hook.messageSnapshotHashes messages).1 =
      .ok delta

end DeltaHook

end Hook

/-! ## What is sent -/

/-- What `_snip_history` reads; an estimate that raises is none. -/
structure SnipSpec where
  contextWindowTokens : Option Int
  contextBlockLimit : Option Int
  providerMaxTokens : Option Int
  estimatePromptTokens : List Message → Option Int
  estimateMessageTokens : Message → Int

/-- `value or default` -/
def orNumber (value : Option Int) (default : Int) : Int :=
  match value with
  | none => default
  | some value => if value = 0 then default else value

/-- Messages from the first legal one on. -/
def fromLegalStart (messages : List Message) : List Message :=
  messages.drop (findLegalMessageStart messages)

namespace SnipSpec

variable (snip : SnipSpec)

def budget (contextWindowTokens : Int) : Int :=
  orNumber snip.contextBlockLimit
    (contextWindowTokens - snip.providerMaxTokens.getD 4096 - 1024)

/-- The loop that keeps the last messages; they are given in reverse. -/
def keep (remainingBudget : Int) :
    List Message → List Message → Int → List Message
  | [], kept, _ => kept
  | message :: rest, kept, keptTokens =>
      let tokens := keptTokens + snip.estimateMessageTokens message
      if kept ≠ [] ∧ remainingBudget < tokens then kept
      else keep remainingBudget rest (message :: kept) tokens

/-- The messages besides those of the system that are left. -/
def snipped (budget : Int) (system nonSystem : List Message) :
    List Message :=
  let systemTokens := (system.map snip.estimateMessageTokens).sum
  let remainingBudget := max 128 (budget - systemTokens)
  let kept := fromLegalStart
    (fromFirstUser (snip.keep remainingBudget nonSystem.reverse [] 0))
  if kept ≠ [] then kept
  else
    fromLegalStart (nonSystem.drop (nonSystem.length - 4))

/-- `_snip_history`, unless the estimate raises. -/
def snipHistory (messages : List Message) : Option (List Message) :=
  let contextWindowTokens := orNumber snip.contextWindowTokens 0
  let budget := snip.budget contextWindowTokens
  let system := messages.filter (·.role == .system)
  let nonSystem := messages.filter (·.role != .system)
  if messages = [] ∨ contextWindowTokens = 0 then some messages
  else if budget ≤ 0 then some messages
  else
    match snip.estimatePromptTokens messages with
    | none => none
    | some estimate =>
        if estimate ≤ budget then some messages
        else if nonSystem = [] then some messages
        else some (system ++ snip.snipped budget system nonSystem)

/-- `messages_for_model` -/
def messagesForModel (messages : List Message) : List Message :=
  (snip.snipHistory messages).getD messages

end SnipSpec

/-- `build_finalization_retry_message` -/
def finalizationRetryMessage : Message :=
  plainMessage .user
    (.text
      ("You have already finished the tool work. Do not call any more " ++
        "tools. Using only the conversation and tool results above, " ++
        "provide the final answer for the user now."))

/-- Is a blank response asked for once more? -/
def retriesFinalization (input : IterationInput) : Bool :=
  input.response.toolCalls.isEmpty && !input.response.isError &&
    !looksLikeMalformedToolCall input.response.content &&
    isBlankText (input.finalizeContent input.response.content)

/-! ## The calls of a lane -/

/--
A model call: the messages that the hook is shown, those of the request whose
response is recorded, and whether the iteration reaches its end.
-/
structure ModelCall where
  messages : List Message
  sent : List Message
  completes : Bool

/-- A run of an agent, with what its history is snipped by. -/
structure LaneRun where
  run : TracedRun
  snip : SnipSpec

namespace LaneRun

variable (lane : LaneRun)

/-- The messages after `_apply_tool_result_budget`. -/
def budgeted (iteration : Nat) (entries : List Entry) : List Message :=
  (applyToolResultBudget lane.run.spec (lane.run.inputs iteration).input
    entries).map Entry.message

/-- The call of an iteration. -/
def call (begun : Nat × RunState) : ModelCall :=
  let traced := lane.run.inputs begun.1
  let messages := lane.budgeted begun.1 begun.2.entries
  { messages := messages
    sent :=
      lane.snip.messagesForModel messages ++
        if retriesFinalization traced.input then [finalizationRetryMessage]
        else []
    completes := traced.interrupted.isNone }

def calls : List ModelCall := lane.run.iterations.map lane.call

end LaneRun

section Lane

variable {ν δ : Type} [DecidableEq δ] (normal : Message → ν) (digest : ν → δ)

/-- A call is recorded. -/
def DeltaHook.record (hook : DeltaHook ν δ) (call : ModelCall) :
    DeltaHook ν δ :=
  let begun := hook.beforeIteration normal digest call.messages
  if call.completes then begun.afterIteration else begun

/-- The hook after some calls. -/
def hookAfter (calls : List ModelCall) : DeltaHook ν δ :=
  calls.foldl (DeltaHook.record normal digest) DeltaHook.start

/-- The calls of the runs that one hook records. -/
def laneCalls (runs : List LaneRun) : List ModelCall :=
  runs.flatMap LaneRun.calls

/--
What is recorded up to a call that is accepted is what was sent in it.  A call
that does not go on from there is rejected, and the hook stays as it is.  No
run is the cause of a rejection: if its first call is accepted, then all are.
-/
structure LosesNoMessage (runs : List LaneRun) : Prop where
  concatenated :
    ∀ front call back, laneCalls runs = front ++ call :: back →
      (hookAfter normal digest front).Accepts normal digest call.messages →
        call.completes = true →
          (hookAfter normal digest (front ++ [call])).recorded =
            call.sent.map normal
  rejected :
    ∀ front back, laneCalls runs = front ++ back → ∀ messages,
      (∀ old ∈ (hookAfter normal digest front).recorded,
        ∀ new ∈ messages, digest old = messageHash normal digest new →
          old = normal new) →
        ¬ (hookAfter normal digest front).recorded <+:
            messages.map normal →
          ¬ (hookAfter normal digest front).Accepts normal digest messages ∧
            (hookAfter normal digest front).beforeIteration normal digest
                messages =
              hookAfter normal digest front
  neverRejects :
    ∀ earlier lane later, runs = earlier ++ lane :: later →
      (∀ first rest, lane.calls = first :: rest →
        (hookAfter normal digest (laneCalls earlier)).Accepts normal digest
          first.messages) →
        ∀ front call back, lane.calls = front ++ call :: back →
          (hookAfter normal digest
            (laneCalls earlier ++ front)).Accepts normal digest
              call.messages

end Lane

/-! ## Prefixes under two maps -/

/-- A prefix under one map is one under another that tells as much apart. -/
theorem map_prefix_map {α β γ κ : Type} {f : α → γ} {g : β → γ}
    {p : α → κ} {q : β → κ} {items : List α} {others : List β}
    (isPrefix : items.map f <+: others.map g)
    (agree : ∀ item ∈ items, ∀ other ∈ others,
      f item = g other → p item = q other) :
    items.map p <+: others.map q := by
  induction items generalizing others with
  | nil => exact List.nil_prefix
  | cons item items induction =>
      cases others with
      | nil =>
          have tooShort := isPrefix.length_le
          simp at tooShort
      | cons other others =>
          rw [List.map_cons, List.map_cons, List.cons_prefix_cons] at isPrefix ⊢
          constructor
          · exact agree item List.mem_cons_self other List.mem_cons_self
              isPrefix.1
          · apply induction isPrefix.2
            intro item member other otherMember
            exact agree item (List.mem_cons_of_mem _ member) other
              (List.mem_cons_of_mem _ otherMember)

/-- What follows a prefix completes it. -/
theorem map_append_drop {α β : Type} {f : α → β} {items others : List α}
    (isPrefix : items.map f <+: others.map f) :
    items.map f ++ (others.drop items.length).map f = others.map f := by
  obtain ⟨rest, isRest⟩ := isPrefix
  have afterItems := congrArg (List.drop (items.map f).length) isRest
  rw [List.drop_left, List.length_map, ← List.map_drop] at afterItems
  rw [← afterItems, isRest]

/-! ## The hook, call by call -/

section Recording

variable {ν δ : Type} [DecidableEq δ] {normal : Message → ν}
  {digest : ν → δ} {hook : DeltaHook ν δ} {messages : List Message}

namespace DeltaHook

theorem accepts_iff :
    hook.Accepts normal digest messages ↔
      hook.messageSnapshotHashes <+:
        messages.map (messageHash normal digest) := by
  rw [List.prefix_iff_eq_take, Accepts, messagesDelta]
  constructor
  · rintro ⟨delta, isDelta⟩
    split at isDelta
    · cases isDelta
    · next appends => exact (not_not.mp (not_or.mp appends).2).symm
  · intro same
    rw [if_neg]
    · exact ⟨_, rfl⟩
    · rintro (tooShort | other)
      · have sameLength := congrArg List.length same
        rw [List.length_take] at sameLength
        omega
      · exact other same.symm

/-- A call that is accepted leaves its hashes and its delta. -/
theorem beforeIteration_accepted
    (accepted : hook.Accepts normal digest messages) :
    hook.beforeIteration normal digest messages =
      { hook with
        messageSnapshotHashes := messages.map (messageHash normal digest)
        iterMessagesDelta :=
          some ((messages.drop
            hook.messageSnapshotHashes.length).map normal) } := by
  rw [Accepts, messagesDelta] at accepted
  rw [beforeIteration, messagesDelta]
  split at accepted
  · obtain ⟨_, isDelta⟩ := accepted
    cases isDelta
  · next appends => rw [if_neg appends]

/-- A call that is rejected leaves the hook as it is. -/
theorem beforeIteration_rejected
    (rejected : ¬ hook.Accepts normal digest messages) :
    hook.beforeIteration normal digest messages = hook := by
  rw [Accepts, messagesDelta] at rejected
  rw [beforeIteration, messagesDelta]
  split at rejected
  · next changed => rw [if_pos changed]
  · exact absurd ⟨_, rfl⟩ rejected

/-- The hook has recorded the messages that it was shown last. -/
structure Shown (normal : Message → ν) (digest : ν → δ)
    (hook : DeltaHook ν δ) (shown : List Message) : Prop where
  hashes :
    hook.messageSnapshotHashes = shown.map (messageHash normal digest)
  recorded : hook.recorded = shown.map normal
  noDelta : hook.iterMessagesDelta = none

omit [DecidableEq δ] in
theorem shown_start :
    Shown normal digest (start : DeltaHook ν δ) [] where
  hashes := rfl
  recorded := rfl
  noDelta := rfl

variable {shown : List Message} {call : ModelCall}

/-- A call that is rejected is not recorded. -/
theorem Shown.record_rejected (holds : hook.Shown normal digest shown)
    (rejected : ¬ hook.Accepts normal digest call.messages) :
    hook.record normal digest call = hook := by
  rw [record, beforeIteration_rejected rejected, afterIteration,
    holds.noDelta]
  exact ite_self _

/-- After a call that is accepted its messages are recorded. -/
theorem Shown.record_accepted (holds : hook.Shown normal digest shown)
    (accepted : hook.Accepts normal digest call.messages)
    (completes : call.completes = true)
    (digests : ∀ old ∈ shown, ∀ new ∈ call.messages,
      messageHash normal digest old = messageHash normal digest new →
        normal old = normal new) :
    (hook.record normal digest call).Shown normal digest
      call.messages := by
  have grows : shown.map normal <+: call.messages.map normal := by
    apply map_prefix_map _ digests
    rw [← holds.hashes]
    exact accepts_iff.mp accepted
  rw [record, completes, if_pos rfl, beforeIteration_accepted accepted]
  refine ⟨rfl, ?_, rfl⟩
  show (hook.llmCalls ++ [_]).flatten = _
  rw [List.flatten_append, List.flatten_singleton, holds.hashes,
    List.length_map, ← map_append_drop grows, ← holds.recorded]
  rfl

/-- The hashes after a call that is accepted. -/
theorem record_hashes (accepted : hook.Accepts normal digest call.messages) :
    (hook.record normal digest call).messageSnapshotHashes =
      call.messages.map (messageHash normal digest) := by
  rw [record, beforeIteration_accepted accepted]
  split
  · rfl
  · rfl

end DeltaHook

end Recording

/-! ## The messages of a run -/

section Run

variable {spec : AgentRunSpec} {iteration : Nat} {input : IterationInput}
  {state next : RunState}

/-- An iteration that goes on has appended to the messages it was shown. -/
theorem iterate_next
    (goesOn : AgentRunner.iterate spec iteration input state = .next next) :
    ∃ news,
      next.entries =
        applyToolResultBudget spec input state.entries ++ news := by
  rw [AgentRunner.iterate] at goesOn
  split at goesOn
  · rw [AgentRunner.runTools] at goesOn
    dsimp only at goesOn
    split at goesOn
    · cases goesOn
    · cases goesOn
      exact ⟨_, List.append_assoc _ _ _⟩
  · split at goesOn
    · rw [AgentRunner.retryMalformed] at goesOn
      dsimp only at goesOn
      split at goesOn
      · cases goesOn
      · cases goesOn
        exact ⟨_, rfl⟩
    · rw [AgentRunner.finish] at goesOn
      dsimp only at goesOn
      split at goesOn
      · cases goesOn
      · split at goesOn
        · cases goesOn
        · split at goesOn
          · cases goesOn
          · cases goesOn

/-- What was shown is the beginning of what is shown next, if it is kept. -/
theorem budget_append (front back : List Entry) :
    applyToolResultBudget spec input front <+:
      applyToolResultBudget spec input (front ++ back) := by
  rw [applyToolResultBudget, applyToolResultBudget, List.mapIdx_append]
  exact List.prefix_append _ _

/-- An iteration follows another. -/
def Follows (run : TracedRun) (begun next : Nat × RunState) : Prop :=
  next.1 = begun.1 + 1 ∧
    ∃ news,
      next.2.entries =
        applyToolResultBudget run.spec (run.inputs begun.1).input
          begun.2.entries ++ news

/-- The iterations of a run follow each other. -/
theorem iterationsFrom_follow (run : TracedRun)
    (remaining iteration : Nat) (state : RunState) :
    (run.iterationsFrom remaining iteration state).IsChain
      (Follows run) := by
  induction remaining generalizing iteration state with
  | zero => exact List.IsChain.nil
  | succ remaining induction =>
      rw [TracedRun.iterationsFrom]
      split
      · exact List.IsChain.singleton _
      · cases goesOn : AgentRunner.iterate run.spec iteration
          (run.inputs iteration).input state with
        | stop _ _ _ => exact List.IsChain.singleton _
        | next next =>
            have rest := induction (iteration + 1) next
            cases remaining with
            | zero => exact List.IsChain.singleton _
            | succ remaining =>
                dsimp only
                rw [TracedRun.iterationsFrom] at rest ⊢
                rw [List.isChain_cons_cons]
                exact ⟨⟨rfl, iterate_next goesOn⟩, rest⟩

end Run

/-! ## The condition -/

/--
The messages of a call are those that were sent: none is left out for the
context window, and a blank response is not asked for once more.
-/
structure LaneRun.SendsShown {ν : Type} (normal : Message → ν)
    (lane : LaneRun) (begun : Nat × RunState) : Prop where
  fits :
    (lane.snip.messagesForModel
        (lane.budgeted begun.1 begun.2.entries)).map normal =
      (lane.budgeted begun.1 begun.2.entries).map normal
  noRetry : retriesFinalization (lane.run.inputs begun.1).input = false

/-- The next iteration does not change the messages that were shown. -/
def LaneRun.KeepsShown {ν : Type} (normal : Message → ν) (lane : LaneRun)
    (begun : Nat × RunState) : Prop :=
  (lane.budgeted (begun.1 + 1)
      (applyToolResultBudget lane.run.spec
        (lane.run.inputs begun.1).input begun.2.entries)).map normal =
    (lane.budgeted begun.1 begun.2.entries).map normal

/--
The steps of a lane: the runner sends what it shows and does not change what
it has shown, only the last call may be cut off, and messages with one digest
are the same.
-/
structure AppendsOnly {ν δ : Type} (normal : Message → ν) (digest : ν → δ)
    (runs : List LaneRun) : Prop where
  sends :
    ∀ lane ∈ runs, ∀ begun ∈ lane.run.iterations,
      lane.SendsShown normal begun
  keeps :
    ∀ lane ∈ runs, ∀ begun ∈ lane.run.iterations,
      ∀ next ∈ lane.run.iterations, next.1 = begun.1 + 1 →
        lane.KeepsShown normal begun
  completes :
    ∀ front call next back,
      laneCalls runs = front ++ call :: next :: back →
        call.completes = true
  digests :
    ∀ old ∈ laneCalls runs, ∀ new ∈ laneCalls runs,
      ∀ a ∈ old.messages, ∀ b ∈ new.messages,
        messageHash normal digest a = messageHash normal digest b →
          normal a = normal b

namespace AppendsOnly

variable {ν δ : Type} [DecidableEq δ] {normal : Message → ν}
  {digest : ν → δ} {runs : List LaneRun}

omit [DecidableEq δ] in
theorem sent (covered : AppendsOnly normal digest runs) {call : ModelCall}
    (member : call ∈ laneCalls runs) :
    call.sent.map normal = call.messages.map normal := by
  obtain ⟨lane, laneMember, callMember⟩ := List.mem_flatMap.mp member
  obtain ⟨begun, begunMember, rfl⟩ := List.mem_map.mp callMember
  have sends := covered.sends lane laneMember begun begunMember
  rw [LaneRun.call]
  dsimp only
  rw [sends.noRetry, if_neg nofun, List.append_nil, sends.fits]

omit [DecidableEq δ] in
/-- The messages of a call go on from those of the call before it. -/
theorem appends (covered : AppendsOnly normal digest runs) {lane : LaneRun}
    (member : lane ∈ runs) :
    lane.calls.IsChain fun earlier later =>
      earlier.messages.map normal <+: later.messages.map normal := by
  rw [LaneRun.calls, List.isChain_map]
  apply (iterationsFrom_follow lane.run _ _ _).imp_of_mem_imp
  rintro begun next begunMember nextMember ⟨number, news, appended⟩
  have keeps :=
    covered.keeps lane member begun begunMember next nextMember number
  rw [LaneRun.KeepsShown] at keeps
  show (lane.budgeted begun.1 begun.2.entries).map normal <+:
    (lane.budgeted next.1 next.2.entries).map normal
  rw [← keeps, appended, number]
  exact ((budget_append _ news).map _).map _

/-- Up to a call the hook has recorded the messages shown to it last. -/
theorem shown (covered : AppendsOnly normal digest runs)
    {front : List ModelCall} {call : ModelCall} {back : List ModelCall}
    (split : laneCalls runs = front ++ call :: back) :
    ∃ shown, (hookAfter normal digest front).Shown normal digest shown ∧
      ∀ message ∈ shown, ∃ old ∈ laneCalls runs, message ∈ old.messages := by
  induction front using List.reverseRecOn generalizing call back with
  | nil => exact ⟨[], DeltaHook.shown_start, nofun⟩
  | append_singleton front last induction =>
      rw [List.append_assoc, List.singleton_append] at split
      obtain ⟨shown, holds, known⟩ := induction split
      have member : last ∈ laneCalls runs := by
        rw [split]
        exact List.mem_append_right _ List.mem_cons_self
      rw [hookAfter, List.foldl_append, List.foldl_cons, List.foldl_nil,
        ← hookAfter]
      by_cases accepted :
          (hookAfter normal digest front).Accepts normal digest last.messages
      · refine ⟨last.messages, holds.record_accepted accepted
          (covered.completes _ _ _ _ split) ?_, ?_⟩
        · intro old oldMember new newMember
          obtain ⟨call, callMember, inCall⟩ := known old oldMember
          exact covered.digests call callMember last member old inCall new
            newMember
        · intro message inLast
          exact ⟨last, member, inLast⟩
      · rw [holds.record_rejected accepted]
        exact ⟨shown, holds, known⟩

/-- Whatever the hook has recorded, its hashes go on from there. -/
theorem recorded_digests (covered : AppendsOnly normal digest runs)
    {front back : List ModelCall} (split : laneCalls runs = front ++ back) :
    (hookAfter normal digest front).recorded.map digest <+:
      (hookAfter normal digest front).messageSnapshotHashes := by
  have atShown {hook : DeltaHook ν δ} {shown : List Message}
      (holds : hook.Shown normal digest shown) :
      hook.recorded.map digest <+: hook.messageSnapshotHashes := by
    rw [holds.recorded, holds.hashes, List.map_map]
    exact List.prefix_refl _
  rcases List.eq_nil_or_concat front with rfl | ⟨front, last, rfl⟩
  · exact atShown DeltaHook.shown_start
  · rw [List.concat_append] at split
    obtain ⟨shown, holds, known⟩ := covered.shown split
    have member : last ∈ laneCalls runs := by
      rw [split]
      exact List.mem_append_right _ List.mem_cons_self
    rw [List.concat_eq_append, hookAfter, List.foldl_append,
      List.foldl_cons, List.foldl_nil, ← hookAfter]
    by_cases accepted :
        (hookAfter normal digest front).Accepts normal digest last.messages
    · have grows := DeltaHook.accepts_iff.mp accepted
      have digests :
          (hookAfter normal digest front).recorded.map digest <+:
            last.messages.map (messageHash normal digest) :=
        (atShown holds).trans grows
      cases completes : last.completes with
      | true =>
          apply atShown (holds.record_accepted accepted completes ?_)
          intro old oldMember new newMember
          obtain ⟨call, callMember, inCall⟩ := known old oldMember
          exact covered.digests call callMember last member old inCall new
            newMember
      | false =>
          rw [DeltaHook.record_hashes accepted, DeltaHook.record, completes,
            DeltaHook.beforeIteration_accepted accepted]
          exact digests
    · rw [holds.record_rejected accepted]
      exact atShown holds

/-- A call that does not go on from what is recorded is rejected. -/
theorem not_accepts (covered : AppendsOnly normal digest runs)
    {front back : List ModelCall} (split : laneCalls runs = front ++ back)
    {messages : List Message}
    (digests : ∀ old ∈ (hookAfter normal digest front).recorded,
      ∀ new ∈ messages, digest old = messageHash normal digest new →
        old = normal new)
    (other : ¬ (hookAfter normal digest front).recorded <+:
      messages.map normal) :
    ¬ (hookAfter normal digest front).Accepts normal digest messages := by
  intro accepted
  apply other
  have hashes := (covered.recorded_digests split).trans
    (DeltaHook.accepts_iff.mp accepted)
  rw [← List.map_id (hookAfter normal digest front).recorded]
  exact map_prefix_map hashes digests

/-- Calls that go on from each other are accepted after the first one. -/
theorem accepts_all {calls : List ModelCall} {hook : DeltaHook ν δ}
    (first : ∀ call rest, calls = call :: rest →
      hook.Accepts normal digest call.messages)
    (chain : calls.IsChain fun earlier later =>
      earlier.messages.map normal <+: later.messages.map normal)
    {front : List ModelCall} {call : ModelCall} {back : List ModelCall}
    (split : calls = front ++ call :: back) :
    (front.foldl (DeltaHook.record normal digest) hook).Accepts normal digest
      call.messages := by
  induction front generalizing calls hook with
  | nil => exact first call back split
  | cons earlier front induction =>
      subst split
      rw [List.foldl_cons]
      have laterChain := chain.tail
      rw [List.cons_append, List.tail_cons] at laterChain
      refine induction ?_ laterChain rfl
      intro later rest isLater
      rw [List.cons_append, isLater, List.isChain_cons_cons] at chain
      have accepted := first earlier _ rfl
      rw [DeltaHook.accepts_iff, DeltaHook.record_hashes accepted]
      have digests := chain.1.map digest
      rw [List.map_map, List.map_map] at digests
      exact digests

/--
If the steps of a lane meet the condition, what is recorded up to a call is
what was sent in it, a call that does not go on from there is rejected, and no
run is the cause of a rejection.
-/
theorem losesNoMessage (covered : AppendsOnly normal digest runs) :
    LosesNoMessage normal digest runs where
  concatenated := by
    intro front call back split accepted completes
    obtain ⟨shown, holds, known⟩ := covered.shown split
    have member : call ∈ laneCalls runs := by
      rw [split]
      exact List.mem_append_right _ List.mem_cons_self
    rw [hookAfter, List.foldl_append, List.foldl_cons, List.foldl_nil,
      ← hookAfter, covered.sent member]
    apply (holds.record_accepted accepted completes ?_).recorded
    intro old oldMember new newMember
    obtain ⟨other, otherMember, inOther⟩ := known old oldMember
    exact covered.digests other otherMember call member old inOther new
      newMember
  rejected := by
    intro front back split messages digests other
    have rejected := covered.not_accepts split digests other
    exact ⟨rejected, DeltaHook.beforeIteration_rejected rejected⟩
  neverRejects := by
    rintro earlier lane later rfl first front call back split
    rw [hookAfter, List.foldl_append, ← hookAfter]
    have member : lane ∈ earlier ++ lane :: later :=
      List.mem_append_right _ List.mem_cons_self
    exact accepts_all first (covered.appends member) split

end AppendsOnly

/-! ### A conversation that does not fit -/

/-- An iteration that is answered. -/
def answeredInput : TracedInput where
  input :=
    { response := ⟨some "Done.", [], false, none, []⟩
      finalizationRetry := ⟨none, [], false, none, []⟩
      finalizeContent := id
      runTool := fun _ _ => ⟨.none, none⟩
      inputHash := 0
      budgetWriteFails := fun _ => false
      resultWriteFails := fun _ => false }
  structured := fun _ => none
  interrupted := none
  hookRaises := fun _ => false

/-- A run for one question after another, in a window of some tokens. -/
def questions (contextWindowTokens : Int) : LaneRun where
  run :=
    { agentId := "task"
      spec :=
        { toolNames := []
          maxIterations := 1
          maxToolResultChars := 16000
          errorMessage := none
          maxIterationsMessage := none
          failOnToolError := false
          toolResultPath := none
          malformedRetryBudget := 3 }
      inputs := fun _ => answeredInput
      initialMessages :=
        [plainMessage .user (.text "What fails?"),
          buildAssistantMessage "The build." [] none [],
          plainMessage .user (.text "Why?")] }
  snip :=
    { contextWindowTokens := some contextWindowTokens
      contextBlockLimit := none
      providerMaxTokens := none
      estimatePromptTokens := fun messages => some (1500 * messages.length)
      estimateMessageTokens := fun _ => 1500 }

/-- In a large window all messages are sent, and recorded. -/
theorem questions_recorded :
    LosesNoMessage id id [questions 65536] := by
  apply AppendsOnly.losesNoMessage
  constructor
  · intro lane laneMember begun begunMember
    cases List.mem_singleton.mp laneMember
    cases List.mem_singleton.mp begunMember
    constructor
    · decide
    · decide
  · intro lane laneMember begun begunMember next nextMember number
    cases List.mem_singleton.mp laneMember
    cases List.mem_singleton.mp begunMember
    cases List.mem_singleton.mp nextMember
    cases number
  · intro front call next back split
    have sameLength := congrArg List.length split
    rw [List.length_append, List.length_cons, List.length_cons] at sameLength
    have one : (laneCalls [questions 65536]).length = 1 := rfl
    omega
  · intro _ _ _ _ a _ b _ same
    exact same

/-- An iteration in which a file is read, and no result can be written. -/
def readInput : TracedInput :=
  { answeredInput with
    input :=
      { answeredInput.input with
        response :=
          ⟨none, [⟨"c", "read_file", "\x7b\"path\": \"log\"\x7d"⟩], false, none, []⟩
        runTool := fun _ _ => ⟨.text "ab", none⟩
        budgetWriteFails := fun _ => true
        resultWriteFails := fun _ => true } }

/-- A run that reads a file twice; after that results can be written. -/
def rewrittenFile : LaneRun :=
  { questions 65536 with
    run :=
      { (questions 65536).run with
        spec :=
          { (questions 65536).run.spec with
            toolNames := ["read_file"]
            maxIterations := 3
            maxToolResultChars := 1
            toolResultPath := some fun _ _ => "r" }
        inputs := fun iteration =>
          if iteration = 2 then answeredInput else readInput } }

/--
In a small window the first question is recorded, and not sent.  A result that
is written to a file when it has been shown is the cause of a rejection.
-/
theorem unsent_question_recorded :
    ¬ LosesNoMessage id id [questions 8192] ∧
      ¬ LosesNoMessage id id [rewrittenFile] := by
  constructor
  · intro holds
    have concatenated := holds.concatenated [] _ [] rfl
      (DeltaHook.accepts_iff.mpr List.nil_prefix) rfl
    exact absurd concatenated (by decide)
  · intro holds
    have accepts := holds.neverRejects [] rewrittenFile [] rfl
      (fun _ _ _ => DeltaHook.accepts_iff.mpr List.nil_prefix)
      rewrittenFile.calls.dropLast
      (rewrittenFile.calls.getLast (by decide +kernel)) []
      (List.dropLast_append_getLast _).symm
    rw [DeltaHook.accepts_iff] at accepts
    exact absurd accepts (by decide +kernel)

end AgentSchedBench.Agent
