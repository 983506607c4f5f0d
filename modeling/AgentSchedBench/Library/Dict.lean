import AgentSchedBench.Library.Loops
import Mathlib.Data.List.Induction

/-!
# Dictionaries

A dictionary is a finite partial map that remembers the order in which its
keys are iterated.  Two dictionaries hold the same bindings when their `get`
functions agree; the order of the keys is not observed by `get`.
-/

/-- A finite partial map with its keys in order of iteration. -/
structure Dict (κ α : Type) where
  keys : List κ
  get : κ → Option α
  mem_keys : ∀ key, key ∈ keys ↔ (get key).isSome

namespace Dict

variable {κ α : Type} {ε : Type}

/-- The dictionary without bindings. -/
def empty : Dict κ α where
  keys := []
  get _ := none
  mem_keys := by simp

@[simp]
theorem get_empty (key : κ) :
    (empty : Dict κ α).get key = none := rfl

/-- The bindings in order of iteration. -/
def items (dict : Dict κ α) : List (κ × α) :=
  dict.keys.filterMap fun key => (dict.get key).map fun value => (key, value)

@[simp]
theorem mem_items (dict : Dict κ α) (key : κ) (value : α) :
    (key, value) ∈ dict.items ↔ dict.get key = some value := by
  rw [items, List.mem_filterMap]
  constructor
  · rintro ⟨other, _, found⟩
    obtain ⟨_, got, pair⟩ := Option.map_eq_some_iff.mp found
    cases pair
    exact got
  · intro got
    exact ⟨key, (dict.mem_keys key).mpr (by simp [got]), by simp [got]⟩

/-- The keys of the bindings. -/
theorem mem_map_items (dict : Dict κ α) (key : κ) :
    key ∈ dict.items.map Prod.fst ↔ (dict.get key).isSome := by
  rw [List.mem_map, Option.isSome_iff_exists]
  constructor
  · rintro ⟨⟨_, value⟩, member, rfl⟩
    exact ⟨value, (dict.mem_items _ value).mp member⟩
  · rintro ⟨value, found⟩
    exact ⟨(key, value), (dict.mem_items key value).mpr found, rfl⟩

/-- A pair of a key and what a function gives for it. -/
theorem value_of_mem_map {value : κ → Option α} {visited : List κ}
    {pair : κ × Option α}
    (member : pair ∈ visited.map fun key => (key, value key)) :
    pair.1 ∈ visited ∧ pair.2 = value pair.1 := by
  obtain ⟨key, isKey, rfl⟩ := List.mem_map.mp member
  exact ⟨isKey, rfl⟩

variable [DecidableEq κ]

/-- `dict[key] = value`. -/
def set (dict : Dict κ α) (key : κ) (value : α) : Dict κ α where
  keys := if key ∈ dict.keys then dict.keys else dict.keys ++ [key]
  get other := if other = key then some value else dict.get other
  mem_keys := by
    intro other
    by_cases same : other = key
    · subst other
      by_cases old : key ∈ dict.keys <;> simp [old]
    · by_cases old : key ∈ dict.keys <;> simp [old, same, dict.mem_keys]

@[simp]
theorem get_set (dict : Dict κ α) (key other : κ) (value : α) :
    (dict.set key value).get other =
      if other = key then some value else dict.get other := rfl

/-- `dict.pop(key, None)`. -/
def pop (dict : Dict κ α) (key : κ) : Dict κ α where
  keys := dict.keys.filter (· ≠ key)
  get other := if other = key then none else dict.get other
  mem_keys := by
    intro other
    by_cases same : other = key <;> simp [same, dict.mem_keys]

@[simp]
theorem get_pop (dict : Dict κ α) (key other : κ) :
    (dict.pop key).get other =
      if other = key then none else dict.get other := rfl

/-- `dict.update(newer)`. -/
def update (dict newer : Dict κ α) : Dict κ α where
  keys := dict.keys ++ newer.keys.filter (· ∉ dict.keys)
  get key := (newer.get key).or (dict.get key)
  mem_keys := by
    intro key
    simp only [List.mem_append, List.mem_filter, decide_not,
      Bool.not_eq_eq_eq_not, Bool.not_true, decide_eq_false_iff_not,
      dict.mem_keys, newer.mem_keys, Option.isSome_or, Bool.or_eq_true]
    tauto

@[simp]
theorem get_update (dict newer : Dict κ α) (key : κ) :
    (dict.update newer).get key = (newer.get key).or (dict.get key) := rfl

/-- Popping a list of keys. -/
theorem get_foldl_pop (removed : List κ) (dict : Dict κ α) (key : κ) :
    (removed.foldl pop dict).get key =
      if key ∈ removed then none else dict.get key := by
  induction removed generalizing dict with
  | nil => simp
  | cons first removed induction =>
      rw [List.foldl_cons, induction, get_pop]
      by_cases same : key = first <;> by_cases later : key ∈ removed <;>
        simp [same, later]

/-- A loop that binds keys to the values that are there, the last one wins. -/
def gather (pairs : List (κ × Option α)) : Dict κ α :=
  pairs.foldl
    (fun dict pair =>
      match pair.2 with
      | some value => dict.set pair.1 value
      | none => dict)
    empty

theorem gather_append (pairs : List (κ × Option α)) (pair : κ × Option α)
    (key : κ) :
    (gather (pairs ++ [pair])).get key =
      if key = pair.1 then pair.2.or ((gather pairs).get key)
      else (gather pairs).get key := by
  rw [gather, List.foldl_append, ← gather]
  rcases pair with ⟨bound, _ | value⟩
  · simp
  · simp

/-- What a key is bound to is the value of a pair. -/
theorem gather_source {pairs : List (κ × Option α)} {key : κ} {value : α}
    (bound : (gather pairs).get key = some value) :
    (key, some value) ∈ pairs := by
  induction pairs using List.reverseRecOn with
  | nil => cases bound
  | append_singleton front last induction =>
      rw [gather_append] at bound
      split at bound
      · next same =>
          rcases last with ⟨other, _ | final⟩
          · exact List.mem_append_left _ (induction bound)
          · cases same
            cases bound
            exact List.mem_append_right _ List.mem_cons_self
      · exact List.mem_append_left _ (induction bound)

/-- A key with a value is bound. -/
theorem gather_bound {pairs : List (κ × Option α)} {key : κ} {value : α}
    (member : (key, some value) ∈ pairs) :
    ((gather pairs).get key).isSome = true := by
  induction pairs using List.reverseRecOn with
  | nil => cases member
  | append_singleton front last induction =>
      rw [gather_append]
      rcases List.mem_append.mp member with earlier | here
      · split
        · rw [Option.isSome_or, induction earlier, Bool.or_true]
        · exact induction earlier
      · cases List.mem_singleton.mp here
        simp

/-- Each key is bound to its own value if keys that agree have one value. -/
theorem gather_own_iff (pairs : List (κ × Option α)) :
    (∀ pair ∈ pairs, (gather pairs).get pair.1 = pair.2) ↔
      ∀ pair ∈ pairs, ∀ other ∈ pairs, pair.1 = other.1 →
        pair.2 = other.2 := by
  constructor
  · intro own pair member other otherMember same
    rw [← own pair member, ← own other otherMember, same]
  · rintro agree ⟨key, value⟩ member
    dsimp only
    cases bound : (gather pairs).get key with
    | some found =>
        exact agree _ (gather_source bound) _ member rfl
    | none =>
        cases value with
        | none => rfl
        | some value =>
            have isBound := gather_bound member
            rw [bound] at isBound
            cases isBound

section Values

variable {value : κ → Option α} {visited : List κ} {key : κ}

/-- A key that is visited is bound to what a function gives for it. -/
theorem get_gather_of_mem (member : key ∈ visited) :
    (gather (visited.map fun key => (key, value key))).get key =
      value key := by
  refine (gather_own_iff _).mpr (fun pair isPair other isOther same => ?_)
    (key, value key) (List.mem_map.mpr ⟨key, member, rfl⟩)
  rw [(value_of_mem_map isPair).2, (value_of_mem_map isOther).2, same]

theorem get_gather_of_not_mem (notMember : key ∉ visited) :
    (gather (visited.map fun key => (key, value key))).get key = none := by
  cases bound :
      (gather (visited.map fun key => (key, value key))).get key with
  | none => rfl
  | some found =>
      exact absurd (value_of_mem_map (gather_source bound)).1 notMember

end Values

/--
A loop that binds some of the keys it visits to a value computed from the
key, skips others and may fail.
-/
def collect
    (value : κ → Except ε (Option α)) (dict : Dict κ α) (key : κ) :
    Except ε (Dict κ α) :=
  match value key with
  | .error failure => .error failure
  | .ok none => .ok dict
  | .ok (some found) => .ok (dict.set key found)

theorem get_foldlM_collect
    (value : κ → Except ε (Option α)) (visited : List κ)
    {dict : Dict κ α}
    (collected : visited.foldlM (collect value) empty = .ok dict)
    (key : κ) :
    (key ∈ visited → value key = .ok (dict.get key)) ∧
      (key ∉ visited → dict.get key = none) := by
  refine Loops.foldlM_invariant (collect value)
    (fun seen dict =>
      (key ∈ seen → value key = .ok (dict.get key)) ∧
        (key ∉ seen → dict.get key = none))
    (by simp) ?_ collected
  intro seen item _ state next ⟨old, fresh⟩ stepped
  rw [collect] at stepped
  by_cases same : key = item
  · subst item
    refine ⟨fun _ => ?_, by simp⟩
    cases computed : value key with
    | error failure =>
        rw [computed] at stepped
        cases stepped
    | ok result =>
        rw [computed] at stepped
        cases result with
        | some found =>
            cases stepped
            simp
        | none =>
            cases stepped
            by_cases member : key ∈ seen
            · rw [← old member, computed]
            · rw [fresh member]
  · have unchanged : next.get key = state.get key := by
      cases computed : value item with
      | error failure =>
          rw [computed] at stepped
          cases stepped
      | ok result =>
          rw [computed] at stepped
          cases result with
          | none =>
              cases stepped
              rfl
          | some found =>
              cases stepped
              simp [same]
    simpa [same, unchanged] using And.intro old fresh

theorem foldlM_collect_total
    (value : κ → Except ε (Option α)) (visited : List κ)
    (total : ∀ key ∈ visited, ∃ result, value key = .ok result) :
    ∃ dict, visited.foldlM (collect value) empty = .ok dict := by
  obtain ⟨dict, collected, _⟩ :=
    Loops.foldlM_total (collect value) (fun _ _ => True) visited empty
      trivial (by
        intro _ key member state _
        obtain ⟨result, computed⟩ := total key member
        cases result with
        | none => exact ⟨state, by simp [collect, computed], trivial⟩
        | some found =>
            exact ⟨state.set key found, by simp [collect, computed], trivial⟩)
  exact ⟨dict, collected⟩

end Dict
