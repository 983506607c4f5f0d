import AgentSchedBench.Library.Tasks
import AgentSchedBench.Agent.Session

/-!
# Turns that interleave

`AgentLoop.run` starts a task for every inbound message.  The task takes the
lock of the message's session key and a permit of the gate, chooses a session,
loads it, runs the turn and saves it.

The lock belongs to the session key of the message, the session is chosen by
`_process_message` for itself: for a system message from its chat, whatever
the key is.
-/

namespace AgentSchedBench.Agent

/-! ## Keys -/

/-- An inbound message with its optional session key. -/
structure DispatchedMessage extends InboundMessage where
  sessionKeyOverride : Option String

namespace DispatchedMessage

variable (message : DispatchedMessage)

/-- `InboundMessage.session_key`, whose `or` passes over an empty override. -/
def sessionKey : String :=
  match message.sessionKeyOverride with
  | some key =>
      if key.isEmpty then message.channel ++ ":" ++ message.chatId else key
  | none => message.channel ++ ":" ++ message.chatId

/-- The key of the session that `_process_message` loads and saves. -/
def loadedKey : String :=
  if message.isSystem then
    message.address.1 ++ ":" ++ message.address.2
  else message.sessionKey

end DispatchedMessage

/-- `_concurrency_gate`, for the value of the environment variable. -/
def concurrencyGate (maxRequests : Int) : Option Nat :=
  if 0 < maxRequests then some maxRequests.toNat else none

/-! ## Dispatching -/

/-- Where the task of a message is. -/
inductive DispatchPhase where
  | inbound
  | waitingForLock
  | waitingForGate
  | entered
  | loaded
  | saved
  | ended
deriving DecidableEq, Repr

structure Dispatch where
  message : DispatchedMessage
  phase : DispatchPhase

/-- The locks that are held, and the permits left if there is a gate. -/
structure LockState where
  held : List String
  permits : Option Nat
deriving DecidableEq, Repr

namespace LockState

variable (locks : LockState)

/-- The gate lets a task in. -/
def Open : Prop :=
  ∀ left, locks.permits = some left → 0 < left

def acquire (key : String) : LockState :=
  { locks with held := key :: locks.held }

def release (key : String) : LockState :=
  { locks with held := locks.held.filter (· ≠ key) }

def enterGate : LockState :=
  { locks with permits := locks.permits.map (· - 1) }

def leaveGate : LockState :=
  { locks with permits := locks.permits.map (· + 1) }

end LockState

/-- The task goes on. -/
def Dispatch.goTo (task : Dispatch) (phase : DispatchPhase) : Dispatch :=
  { task with phase := phase }

/--
What `_dispatch` may do next.  A task may be cancelled while it waits, and a
turn may raise before or after it has loaded its session.
-/
inductive DispatchMove :
    LockState → Dispatch → LockState → Dispatch → Prop where
  | arrives {locks : LockState} {task : Dispatch}
      (here : task.phase = .inbound) :
      DispatchMove locks task locks (task.goTo .waitingForLock)
  | cancelledAtLock {locks : LockState} {task : Dispatch}
      (here : task.phase = .waitingForLock) :
      DispatchMove locks task locks (task.goTo .ended)
  | takesLock {locks : LockState} {task : Dispatch}
      (here : task.phase = .waitingForLock)
      (free : task.message.sessionKey ∉ locks.held) :
      DispatchMove locks task (locks.acquire task.message.sessionKey)
        (task.goTo .waitingForGate)
  | cancelledAtGate {locks : LockState} {task : Dispatch}
      (here : task.phase = .waitingForGate) :
      DispatchMove locks task (locks.release task.message.sessionKey)
        (task.goTo .ended)
  | entersGate {locks : LockState} {task : Dispatch}
      (here : task.phase = .waitingForGate) (passes : locks.Open) :
      DispatchMove locks task locks.enterGate (task.goTo .entered)
  | loads {locks : LockState} {task : Dispatch}
      (here : task.phase = .entered) :
      DispatchMove locks task locks (task.goTo .loaded)
  | saves {locks : LockState} {task : Dispatch}
      (here : task.phase = .loaded) :
      DispatchMove locks task locks (task.goTo .saved)
  | leaves {locks : LockState} {task : Dispatch}
      (here :
        task.phase = .entered ∨ task.phase = .loaded ∨
          task.phase = .saved) :
      DispatchMove locks task
        (locks.release task.message.sessionKey).leaveGate
        (task.goTo .ended)

abbrev Dispatching := Tasks.State LockState Dispatch

/-- Nothing has arrived, and no lock is held. -/
def Dispatching.start (maxRequests : Int)
    (messages : List DispatchedMessage) : Dispatching where
  shared := { held := [], permits := concurrencyGate maxRequests }
  tasks := messages.map fun message => ⟨message, .inbound⟩

/-- The states that some order of moves leads to. -/
def Dispatching.Reachable (maxRequests : Int)
    (messages : List DispatchedMessage) (state : Dispatching) : Prop :=
  Tasks.Reachable DispatchMove (Dispatching.start maxRequests messages) state

/-! ## One turn at a time -/

/-- The task has loaded the session and not saved it. -/
def Dispatch.Holds (key : String) (task : Dispatch) : Prop :=
  task.phase = .loaded ∧ task.message.loadedKey = key

/-- No two tasks have loaded the same session. -/
def Dispatching.OneTurnPerSession (state : Dispatching) : Prop :=
  ∀ key, state.tasks.Pairwise fun first second =>
    ¬ (first.Holds key ∧ second.Holds key)

/-- Messages for one session have one session key. -/
def LocksAgree (messages : List DispatchedMessage) : Prop :=
  messages.Pairwise fun first second =>
    first.loadedKey = second.loadedKey → first.sessionKey = second.sessionKey

/-! ## Who holds what -/

namespace Dispatch

/-- One for a task that has the lock of the key. -/
def locks (key : String) (task : Dispatch) : Nat :=
  if task.message.sessionKey = key ∧ task.phase ≠ .inbound ∧
      task.phase ≠ .waitingForLock ∧ task.phase ≠ .ended
  then 1 else 0

/-- One for a task that has passed the gate. -/
def inside (task : Dispatch) : Nat :=
  if task.phase = .entered ∨ task.phase = .loaded ∨ task.phase = .saved
  then 1 else 0

theorem Holds.locks {key : String} {task : Dispatch}
    (holds : task.Holds key) : task.locks task.message.sessionKey = 1 := by
  simp [Dispatch.locks, holds.1]

theorem Holds.inside {key : String} {task : Dispatch}
    (holds : task.Holds key) : task.inside = 1 := by
  simp [Dispatch.inside, holds.1]

end Dispatch

namespace Dispatching.Reachable

variable {maxRequests : Int} {messages : List DispatchedMessage}
  {state : Dispatching}

/-- Each lock has one holder. -/
theorem locks_le
    (reachable : Dispatching.Reachable maxRequests messages state)
    (key : String) :
    Tasks.weight (Dispatch.locks key) state.tasks ≤ 1 := by
  have bound :=
    Tasks.Reachable.bounded
      (fun locks : LockState => if key ∈ locks.held then 0 else 1)
      (Dispatch.locks key) reachable (by
        intro locks task later next move
        cases move <;>
          simp only [Dispatch.locks, Dispatch.goTo, LockState.acquire,
            LockState.release, LockState.enterGate, LockState.leaveGate,
            List.mem_cons, List.mem_filter, decide_eq_true_eq] <;>
          grind)
  have atStart : Tasks.weight (Dispatch.locks key)
      (Dispatching.start maxRequests messages).tasks = 0 := by
    apply Tasks.weight_eq_zero
    intro task member
    obtain ⟨message, _, rfl⟩ := List.mem_map.mp member
    simp [Dispatch.locks]
  rw [atStart] at bound
  simp only [Dispatching.start, List.not_mem_nil, if_false] at bound
  omega

/-- The gate lets in as many tasks as it has permits. -/
theorem inside_le
    (reachable : Dispatching.Reachable maxRequests messages state)
    (gated : 0 < maxRequests) :
    Tasks.weight Dispatch.inside state.tasks ≤ maxRequests.toNat := by
  suffices counted :
      ∃ left, state.shared.permits = some left ∧
        Tasks.weight Dispatch.inside state.tasks + left =
          maxRequests.toNat by
    obtain ⟨left, _, sum⟩ := counted
    omega
  refine
    Tasks.Reachable.invariant
      (fun state : Dispatching =>
        ∃ left, state.shared.permits = some left ∧
          Tasks.weight Dispatch.inside state.tasks + left =
            maxRequests.toNat)
      reachable ?_ ?_
  · refine ⟨maxRequests.toNat, ?_, ?_⟩
    · simp [Dispatching.start, concurrencyGate, gated]
    · rw [Tasks.weight_eq_zero, Nat.zero_add]
      intro task member
      obtain ⟨message, _, rfl⟩ := List.mem_map.mp member
      rfl
  · rintro _ _ ⟨left, permits, sum⟩ ⟨move⟩
    simp only [Tasks.weight_split] at permits sum ⊢
    cases move with
    | entersGate here passes =>
        have positive := passes left permits
        refine ⟨left - 1, by rw [LockState.enterGate, permits]; rfl, ?_⟩
        simp [Dispatch.inside, Dispatch.goTo, here] at sum ⊢
        omega
    | leaves here =>
        refine
          ⟨left + 1, by
            simp [LockState.leaveGate, LockState.release, permits], ?_⟩
        simp [Dispatch.inside, Dispatch.goTo, here] at sum ⊢
        omega
    | takesLock here =>
        refine ⟨left, permits, ?_⟩
        simpa [Dispatch.inside, Dispatch.goTo, here] using sum
    | cancelledAtGate here =>
        refine ⟨left, permits, ?_⟩
        simpa [Dispatch.inside, Dispatch.goTo, here] using sum
    | arrives here | cancelledAtLock here | loads here | saves here =>
        refine ⟨left, permits, ?_⟩
        simpa [Dispatch.inside, Dispatch.goTo, here] using sum

/-- The messages of the tasks stay as they are. -/
theorem tasks_message
    (reachable : Dispatching.Reachable maxRequests messages state) :
    state.tasks.map Dispatch.message = messages := by
  have same :=
    Tasks.Reachable.tasks_map Dispatch.message reachable (by
      intro locks task later next move
      cases move <;> rfl)
  rw [same, Dispatching.start, List.map_map]
  exact List.map_id messages

end Dispatching.Reachable

/-- With one permit, or one lock for each session, turns do not overlap. -/
theorem oneTurnPerSession_of_agree {maxRequests : Int}
    {messages : List DispatchedMessage} {state : Dispatching}
    (reachable : Dispatching.Reachable maxRequests messages state)
    (excluded : maxRequests = 1 ∨ LocksAgree messages) :
    state.OneTurnPerSession := by
  intro key
  rcases excluded with onePermit | agree
  · have atMost := reachable.inside_le (by omega)
    rw [onePermit] at atMost
    refine (Tasks.pairwise_of_weight_le_one atMost).imp ?_
    rintro first second apart ⟨firstHolds, secondHolds⟩
    apply apart
    rw [firstHolds.inside, secondHolds.inside]
    exact ⟨Nat.one_pos, Nat.one_pos⟩
  · have keys : state.tasks.Pairwise fun first second =>
        first.message.loadedKey = second.message.loadedKey →
          first.message.sessionKey = second.message.sessionKey := by
      have agreeing := agree
      rw [← reachable.tasks_message, LocksAgree, List.pairwise_map] at agreeing
      exact agreeing
    rw [List.pairwise_iff_getElem] at keys ⊢
    intro first second firstLt secondLt before ⟨firstHolds, secondHolds⟩
    have sameLock :=
      keys first second firstLt secondLt before
        (firstHolds.2.trans secondHolds.2.symm)
    have one := List.pairwise_iff_getElem.mp
      (Tasks.pairwise_of_weight_le_one
        (reachable.locks_le state.tasks[first].message.sessionKey))
      first second firstLt secondLt before
    apply one
    have secondLocks := secondHolds.locks
    rw [← sameLock] at secondLocks
    rw [firstHolds.locks, secondLocks]
    exact ⟨Nat.one_pos, Nat.one_pos⟩

/-! ## Two turns at a time -/

/-- Two items of a list that are not related. -/
theorem exists_of_not_pairwise {α : Type} {related : α → α → Prop}
    {items : List α} (unrelated : ¬ items.Pairwise related) :
    ∃ front first middle second back,
      items = front ++ first :: (middle ++ second :: back) ∧
        ¬ related first second := by
  induction items with
  | nil => exact absurd .nil unrelated
  | cons item rest induction =>
      by_cases restRelated : rest.Pairwise related
      · have some : ∃ other ∈ rest, ¬ related item other := by
          by_contra none
          push Not at none
          exact unrelated (List.pairwise_cons.mpr ⟨none, restRelated⟩)
        obtain ⟨other, member, apart⟩ := some
        obtain ⟨middle, back, rfl⟩ := List.append_of_mem member
        exact ⟨[], item, middle, other, back, rfl, apart⟩
      · obtain ⟨front, first, middle, second, back, rfl, apart⟩ :=
          induction restRelated
        exact ⟨item :: front, first, middle, second, back, rfl, apart⟩

/-- A message whose lock is free is dispatched up to the load. -/
theorem dispatch_loads (front back : List Dispatch) (locks : LockState)
    (message : DispatchedMessage)
    (free : message.sessionKey ∉ locks.held) (passes : locks.Open) :
    Tasks.Reachable DispatchMove
      ⟨locks, front ++ ⟨message, .inbound⟩ :: back⟩
      ⟨(locks.acquire message.sessionKey).enterGate,
        front ++ ⟨message, .loaded⟩ :: back⟩ :=
  (Tasks.Reachable.move front back (.arrives rfl)).trans
    ((Tasks.Reachable.move front back (.takesLock rfl free)).trans
      ((Tasks.Reachable.move front back (.entersGate rfl passes)).trans
        (Tasks.Reachable.move front back (.loads rfl))))

/--
Two messages for one session with different session keys are processed at the
same time if the gate lets two tasks in.
-/
theorem overlap_of_disagreement {maxRequests : Int}
    {messages : List DispatchedMessage} (permits : maxRequests ≠ 1)
    (disagree : ¬ LocksAgree messages) :
    ∃ state, Dispatching.Reachable maxRequests messages state ∧
      ¬ state.OneTurnPerSession := by
  obtain ⟨front, first, middle, second, back, rfl, apart⟩ :=
    exists_of_not_pairwise disagree
  push Not at apart
  obtain ⟨sameSession, otherLock⟩ := apart
  let inbound : List DispatchedMessage → List Dispatch :=
    List.map fun message => ⟨message, .inbound⟩
  let start : LockState :=
    { held := [], permits := concurrencyGate maxRequests }
  let between := (start.acquire first.sessionKey).enterGate
  have startOpen : start.Open := by
    intro left here
    simp only [start, concurrencyGate] at here
    split at here
    · cases here
      omega
    · cases here
  have betweenOpen : between.Open := by
    intro left here
    simp only [between, start, concurrencyGate, LockState.enterGate,
      LockState.acquire] at here
    split at here
    · rw [Option.map_some, Option.some.injEq] at here
      omega
    · cases here
  have free : second.sessionKey ∉ between.held := by
    intro held
    exact otherLock (List.mem_singleton.mp held).symm
  have firstLoads :=
    dispatch_loads (inbound front)
      (inbound middle ++ ⟨second, .inbound⟩ :: inbound back) start first
      List.not_mem_nil startOpen
  have secondLoads :=
    dispatch_loads (inbound front ++ ⟨first, .loaded⟩ :: inbound middle)
      (inbound back) between second free betweenOpen
  rw [List.append_assoc, List.append_assoc] at secondLoads
  have started : Dispatching.start maxRequests
      (front ++ first :: (middle ++ second :: back)) =
        ⟨start,
          inbound front ++ ⟨first, .inbound⟩ ::
            (inbound middle ++ ⟨second, .inbound⟩ :: inbound back)⟩ := by
    simp [Dispatching.start, inbound, start]
  refine
    ⟨⟨(between.acquire second.sessionKey).enterGate,
      inbound front ++ ⟨first, .loaded⟩ ::
        (inbound middle ++ ⟨second, .loaded⟩ :: inbound back)⟩, ?_, ?_⟩
  · rw [Dispatching.Reachable, started]
    exact firstLoads.trans secondLoads
  · intro oneTurn
    have apart := oneTurn first.loadedKey
    rw [List.pairwise_append, List.pairwise_cons] at apart
    exact
      apart.2.1.1 ⟨second, .loaded⟩ (by simp)
        ⟨⟨rfl, rfl⟩, rfl, sameSession.symm⟩

/--
No turn starts between another turn's load and its save if and only if the
gate has one permit or messages for one session have one session key.
-/
theorem oneTurnPerSession_iff (maxRequests : Int)
    (messages : List DispatchedMessage) :
    (∀ state, Dispatching.Reachable maxRequests messages state →
      state.OneTurnPerSession) ↔
      maxRequests = 1 ∨ LocksAgree messages := by
  constructor
  · intro always
    by_contra none
    push Not at none
    obtain ⟨state, reachable, overlap⟩ :=
      overlap_of_disagreement none.1 none.2
    exact overlap (always state reachable)
  · intro excluded state reachable
    exact oneTurnPerSession_of_agree reachable excluded

/-- The prompt of a benchmark run. -/
def evalPrompt : DispatchedMessage where
  channel := "system"
  senderId := "user"
  chatId := "cli:task"
  content := "Fix the bug."
  media := []
  sessionKeyOverride := some "eval:task"

/-- The result of a subagent of that run. -/
def evalAnnouncement : DispatchedMessage where
  channel := "system"
  senderId := "subagent"
  chatId := "cli:task"
  content := "[Subagent 'search' completed successfully]"
  media := []
  sessionKeyOverride := none

/--
The turn for a subagent's result starts while the prompt's turn is running on
the same session.
-/
theorem announcement_overlaps_prompt :
    ∃ state,
      Dispatching.Reachable 3 [evalPrompt, evalAnnouncement] state ∧
        ¬ state.OneTurnPerSession := by
  apply overlap_of_disagreement (by decide)
  unfold LocksAgree
  decide

end AgentSchedBench.Agent
