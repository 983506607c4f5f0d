import AgentSchedBench.Library.Decimals
import AgentSchedBench.Library.FreshNames

/-!
# The instance ids of a replay

A session whose source id is repeated gets a numbered id, and a longer one if
that is the source id of a session or has been given to one.
-/

namespace AgentSchedBench.Replay

open Decimals FreshNames JsonText

/-- A loaded session, as far as its id goes. -/
structure LoadedIds where
  sourceAgentId : String
  manifestIndex : Int
deriving DecidableEq

/-! ## Formatting -/

/-- `f"{value:0{width}d}"` -/
def zeroPadded (width : Nat) : Int → List Char
  | .ofNat value =>
      let digits := dumpNat value
      List.replicate (width - digits.length) '0' ++ digits
  | .negSucc value =>
      let digits := dumpNat (value + 1)
      '-' :: (List.replicate (width - 1 - digits.length) '0' ++ digits)

example : zeroPadded 3 7 = "007".toList := by decide

/-- `base` -/
def replicaId (sourceAgentId : String) (occurrence : Nat) : String :=
  sourceAgentId ++ "__replica-" ++ String.ofList (zeroPadded 3 occurrence)

/-- `f"{base}__entry-{session.manifest_index:04d}"` -/
def entryId (base : String) (manifestIndex : Int) : String :=
  base ++ "__entry-" ++ String.ofList (zeroPadded 4 manifestIndex)

/-- The same with a suffix. -/
def suffixedId (base : String) (manifestIndex : Int) (suffix : Nat) : String :=
  entryId base manifestIndex ++ "-" ++ String.ofList (dumpNat suffix)

/-! ## Assignment -/

/-- `source_counts` -/
def sourceCounts (sessions : List LoadedIds) : String → Nat :=
  sessions.foldl
    (fun counts session id =>
      if id = session.sourceAgentId then counts id + 1 else counts id)
    fun _ => 0

/-- What the loop over the sessions keeps. -/
structure IdState where
  usedIds : List String
  sourceOccurrences : String → Nat

/-- The candidate for a session whose source id is repeated, if the loop that
looks for a free suffix ends after so many passes. -/
def replicaCandidate (fuel : Nat) (reserved used : List String) (base : String)
    (manifestIndex : Int) : Option String :=
  let taken := reserved ++ used
  if base ∈ taken then
    if entryId base manifestIndex ∈ taken then
      firstFree taken (suffixedId base manifestIndex) fuel 2
    else some (entryId base manifestIndex)
  else some base

/-- The loop over the sessions. -/
def assignFrom (fuel : Nat) (counts : String → Nat) (reserved : List String) :
    IdState → List LoadedIds → Option (List String)
  | _, [] => some []
  | state, session :: sessions =>
      let source := session.sourceAgentId
      if counts source = 1 then
        (assignFrom fuel counts reserved
          { state with usedIds := source :: state.usedIds } sessions).map
            fun ids => source :: ids
      else
        let occurrence := state.sourceOccurrences source + 1
        match replicaCandidate fuel reserved state.usedIds
            (replicaId source occurrence) session.manifestIndex with
        | none => none
        | some candidate =>
            (assignFrom fuel counts reserved
              { usedIds := candidate :: state.usedIds
                sourceOccurrences := fun id =>
                  if id = source then occurrence else state.sourceOccurrences id }
              sessions).map fun ids => candidate :: ids

/-- `_assign_replay_instance_ids`: the ids of the sessions, in their order. -/
def assignReplayInstanceIds (fuel : Nat) (sessions : List LoadedIds) :
    Option (List String) :=
  assignFrom fuel (sourceCounts sessions) (sessions.map (·.sourceAgentId))
    { usedIds := [], sourceOccurrences := fun _ => 0 } sessions

/-! ## Candidates -/

theorem suffixedId_injective (base : String) (manifestIndex : Int) :
    Function.Injective (suffixedId base manifestIndex) := by
  intro suffix other same
  have digits : dumpNat suffix = dumpNat other := by
    have texts := congrArg String.toList same
    simpa [suffixedId] using texts
  have values := congrArg decimalValue digits
  rwa [(dumpNat_digits suffix).2, (dumpNat_digits other).2] at values

/-- A candidate is found, which is no source id and has not been given. -/
theorem exists_replicaCandidate (reserved used : List String) (base : String)
    (manifestIndex : Int) :
    ∃ candidate, candidate ∉ reserved ∧ candidate ∉ used ∧
      ∀ fuel, reserved.length + used.length < fuel →
        replicaCandidate fuel reserved used base manifestIndex =
          some candidate := by
  by_cases baseTaken : base ∈ reserved ++ used
  · by_cases entryTaken : entryId base manifestIndex ∈ reserved ++ used
    · obtain ⟨found, isFound⟩ := exists_firstFree
        (suffixedId_injective base manifestIndex)
        (Nat.lt_succ_self (reserved ++ used).length) 2
      have free := firstFree_free isFound
      rw [List.mem_append, not_or] at free
      refine ⟨found, free.1, free.2, fun fuel enough => ?_⟩
      rw [replicaCandidate, if_pos baseTaken, if_pos entryTaken]
      refine firstFree_mono isFound ?_
      rw [List.length_append]
      exact enough
    · have free := entryTaken
      rw [List.mem_append, not_or] at free
      refine ⟨_, free.1, free.2, fun fuel _ => ?_⟩
      rw [replicaCandidate, if_pos baseTaken, if_neg entryTaken]
  · have free := baseTaken
    rw [List.mem_append, not_or] at free
    refine ⟨_, free.1, free.2, fun fuel _ => ?_⟩
    rw [replicaCandidate, if_neg baseTaken]

/-! ## Counts -/

theorem sourceCounts_eq (sessions : List LoadedIds) (id : String) :
    sourceCounts sessions id =
      sessions.countP fun session => session.sourceAgentId = id := by
  have general : ∀ (sessions : List LoadedIds) (counts : String → Nat),
      sessions.foldl (fun counts session id =>
        if id = session.sourceAgentId then counts id + 1 else counts id)
          counts id =
        counts id + sessions.countP fun session => session.sourceAgentId = id := by
    intro sessions
    induction sessions with
    | nil => exact fun _ => rfl
    | cons session sessions induction =>
        intro counts
        rw [List.foldl_cons, induction, List.countP_cons]
        by_cases same : id = session.sourceAgentId
        · simp [same, Nat.add_assoc, Nat.add_comm 1]
        · simp [same, Ne.symm same]
  rw [sourceCounts, general, Nat.zero_add]

/-- A source id that occurs once is that of no later session. -/
theorem pairwise_of_sourceCounts (sessions : List LoadedIds) :
    sessions.Pairwise fun session later =>
      sourceCounts sessions session.sourceAgentId = 1 →
        later.sourceAgentId ≠ session.sourceAgentId := by
  rw [List.pairwise_iff_forall_sublist]
  intro session later sublist once same
  rw [sourceCounts_eq] at once
  have twice := sublist.countP_le
    (p := fun other => decide (other.sourceAgentId = session.sourceAgentId))
  simp [same] at twice
  omega

/-! ## Ids -/

/-- The ids are new and distinct, and those of the sessions whose source id
occurs once are left. -/
theorem exists_assignFrom (counts : String → Nat) (reserved : List String)
    {sessions : List LoadedIds} (state : IdState)
    (isReserved : ∀ session ∈ sessions, session.sourceAgentId ∈ reserved)
    (unused : ∀ session ∈ sessions, counts session.sourceAgentId = 1 →
      session.sourceAgentId ∉ state.usedIds)
    (once : sessions.Pairwise fun session later =>
      counts session.sourceAgentId = 1 →
        later.sourceAgentId ≠ session.sourceAgentId) :
    ∃ ids : List String,
      (∀ fuel, reserved.length + state.usedIds.length + sessions.length < fuel →
        assignFrom fuel counts reserved state sessions = some ids) ∧
      List.Forall₂ (fun session id => counts session.sourceAgentId = 1 →
        id = session.sourceAgentId) sessions ids ∧
      ids.Nodup ∧ ∀ id ∈ ids, id ∉ state.usedIds := by
  induction sessions generalizing state with
  | nil => exact ⟨[], fun _ _ => rfl, .nil, List.nodup_nil, nofun⟩
  | cons session sessions induction =>
      rw [List.forall_mem_cons] at isReserved unused
      rw [List.pairwise_cons] at once
      by_cases isOnce : counts session.sourceAgentId = 1
      · obtain ⟨ids, assigned, left, distinct, new⟩ := induction
          { state with usedIds := session.sourceAgentId :: state.usedIds }
          isReserved.2 (fun later member laterOnce => by
            rw [List.mem_cons, not_or]
            exact ⟨once.1 later member isOnce, unused.2 later member laterOnce⟩)
          once.2
        simp only [List.mem_cons, not_or] at new
        refine ⟨session.sourceAgentId :: ids, fun fuel enough => ?_,
          .cons (fun _ => rfl) left, List.nodup_cons.mpr ⟨?_, distinct⟩, ?_⟩
        · rw [assignFrom]
          dsimp only
          rw [if_pos isOnce, assigned fuel (by simp at enough ⊢; omega)]
          rfl
        · exact fun member => (new _ member).1 rfl
        · exact List.forall_mem_cons.mpr ⟨unused.1 isOnce,
            fun id member => (new id member).2⟩
      · obtain ⟨candidate, notReserved, notUsed, found⟩ :=
          exists_replicaCandidate reserved state.usedIds
            (replicaId session.sourceAgentId
              (state.sourceOccurrences session.sourceAgentId + 1))
            session.manifestIndex
        obtain ⟨ids, assigned, left, distinct, new⟩ := induction
          { usedIds := candidate :: state.usedIds
            sourceOccurrences := fun id =>
              if id = session.sourceAgentId then
                state.sourceOccurrences session.sourceAgentId + 1
              else state.sourceOccurrences id }
          isReserved.2 (fun later member laterOnce => by
            rw [List.mem_cons, not_or]
            refine ⟨fun same => notReserved ?_, unused.2 later member laterOnce⟩
            exact same ▸ isReserved.2 later member)
          once.2
        simp only [List.mem_cons, not_or] at new
        refine ⟨candidate :: ids, fun fuel enough => ?_,
          .cons (fun isOne => absurd isOne isOnce) left,
          List.nodup_cons.mpr ⟨?_, distinct⟩, ?_⟩
        · rw [assignFrom]
          dsimp only
          rw [if_neg isOnce, found fuel (by omega)]
          dsimp only
          rw [assigned fuel (by simp at enough ⊢; omega)]
          rfl
        · exact fun member => (new _ member).1 rfl
        · exact List.forall_mem_cons.mpr ⟨notUsed,
            fun id member => (new id member).2⟩

/-- The assignment ends with distinct ids, one for each session, and leaves the
id of a session whose source id occurs once. -/
theorem assignReplayInstanceIds_distinct (sessions : List LoadedIds) :
    ∃ ids : List String,
      (∀ fuel, 2 * sessions.length < fuel →
        assignReplayInstanceIds fuel sessions = some ids) ∧
      ids.Nodup ∧
      List.Forall₂ (fun session id =>
        (sessions.countP fun other =>
          other.sourceAgentId = session.sourceAgentId) = 1 →
            id = session.sourceAgentId) sessions ids := by
  obtain ⟨ids, assigned, left, distinct, _⟩ := exists_assignFrom
    (sourceCounts sessions) (sessions.map (·.sourceAgentId))
    { usedIds := [], sourceOccurrences := fun _ => 0 }
    (fun _ => List.mem_map_of_mem) (fun _ _ _ => List.not_mem_nil)
    (pairwise_of_sourceCounts sessions)
  refine ⟨ids, fun fuel enough => assigned fuel ?_, distinct, ?_⟩
  · rw [List.length_map]
    dsimp only [List.length_nil]
    omega
  · simpa only [sourceCounts_eq] using left

end AgentSchedBench.Replay
