import Mathlib.Data.List.Forall2

/-!
# Loops that may fail

A loop over a list is a monadic fold in `Except`.  The rules below carry an
invariant that speaks about the elements already visited, in the two
directions a verification needs: every run succeeds and ends in the
invariant, and every successful run ends in the invariant.
-/

namespace Loops

variable {ε σ α : Type}

theorem bind_eq_ok
    {first : Except ε σ} {next : σ → Except ε α} {result : α} :
    first.bind next = .ok result ↔
      ∃ middle, first = .ok middle ∧ next middle = .ok result := by
  cases first with
  | error failure => simp [Except.bind]
  | ok middle => simp [Except.bind]

theorem bind_eq_error
    {first : Except ε σ} {next : σ → Except ε α} {failure : ε} :
    first.bind next = .error failure ↔
      first = .error failure ∨
        ∃ middle, first = .ok middle ∧ next middle = .error failure := by
  cases first with
  | error failed => simp [Except.bind]
  | ok middle => simp [Except.bind]

/-- A loop all of whose steps succeed from the invariant succeeds. -/
theorem foldlM_total
    (step : σ → α → Except ε σ) (invariant : List α → σ → Prop)
    (items : List α) (start : σ)
    (init : invariant [] start)
    (preserved :
      ∀ visited item, item ∈ items → ∀ state, invariant visited state →
        ∃ next, step state item = .ok next ∧
          invariant (visited ++ [item]) next) :
    ∃ final, items.foldlM step start = .ok final ∧
      invariant items final := by
  suffices general :
      ∀ rest visited state, (∀ item ∈ rest, item ∈ items) →
        invariant visited state →
        ∃ final, rest.foldlM step state = .ok final ∧
          invariant (visited ++ rest) final by
    simpa using general items [] start (fun _ member => member) init
  intro rest
  induction rest with
  | nil =>
      intro visited state _ holds
      exact ⟨state, rfl, by simpa using holds⟩
  | cons item rest induction =>
      intro visited state members holds
      obtain ⟨next, stepped, nextHolds⟩ :=
        preserved visited item (members item List.mem_cons_self) state holds
      obtain ⟨final, folded, finalHolds⟩ :=
        induction (visited ++ [item]) next
          (fun other member => members other (List.mem_cons_of_mem item member))
          nextHolds
      refine ⟨final, ?_, by simpa using finalHolds⟩
      rw [List.foldlM_cons]
      exact bind_eq_ok.mpr ⟨next, stepped, folded⟩

/-- A successful loop ends in any invariant its successful steps preserve. -/
theorem foldlM_invariant
    (step : σ → α → Except ε σ) (invariant : List α → σ → Prop)
    {items : List α} {start final : σ}
    (init : invariant [] start)
    (preserved :
      ∀ visited item, item ∈ items → ∀ state next,
        invariant visited state → step state item = .ok next →
          invariant (visited ++ [item]) next)
    (folded : items.foldlM step start = .ok final) :
    invariant items final := by
  suffices general :
      ∀ rest visited state, (∀ item ∈ rest, item ∈ items) →
        invariant visited state → rest.foldlM step state = .ok final →
        invariant (visited ++ rest) final by
    simpa using general items [] start (fun _ member => member) init folded
  intro rest
  induction rest with
  | nil =>
      intro visited state _ holds folded
      cases folded
      simpa using holds
  | cons item rest induction =>
      intro visited state members holds folded
      rw [List.foldlM_cons] at folded
      obtain ⟨next, stepped, folded⟩ := bind_eq_ok.mp folded
      have nextHolds :=
        preserved visited item (members item List.mem_cons_self)
          state next holds stepped
      simpa using
        induction (visited ++ [item]) next
          (fun other member => members other (List.mem_cons_of_mem item member))
          nextHolds folded

/-- The invariant rule of a loop that cannot fail. -/
theorem foldl_invariant
    (step : σ → α → σ) (invariant : List α → σ → Prop)
    (items : List α) (start : σ)
    (init : invariant [] start)
    (preserved :
      ∀ visited item, item ∈ items → ∀ state, invariant visited state →
        invariant (visited ++ [item]) (step state item)) :
    invariant items (items.foldl step start) := by
  suffices general :
      ∀ rest visited state, (∀ item ∈ rest, item ∈ items) →
        invariant visited state →
        invariant (visited ++ rest) (rest.foldl step state) by
    simpa using general items [] start (fun _ member => member) init
  intro rest
  induction rest with
  | nil =>
      intro visited state _ holds
      simpa using holds
  | cons item rest induction =>
      intro visited state members holds
      simpa using
        induction (visited ++ [item]) (step state item)
          (fun other member => members other (List.mem_cons_of_mem item member))
          (preserved visited item (members item List.mem_cons_self)
            state holds)

/-- A loop that collects results succeeds when each of its calls does. -/
theorem mapM_eq_ok {β : Type} (call : α → Except ε β) (items : List α)
    (results : List β) :
    items.mapM call = .ok results ↔
      List.Forall₂ (fun item result => call item = .ok result)
        items results := by
  induction items generalizing results with
  | nil =>
      rw [List.mapM_nil, List.forall₂_nil_left_iff]
      exact ⟨fun same => (Except.ok.inj same).symm, fun same => same ▸ rfl⟩
  | cons item rest induction =>
      rw [List.mapM_cons, List.forall₂_cons_left_iff]
      constructor
      · intro collected
        obtain ⟨first, called, others⟩ := bind_eq_ok.mp collected
        obtain ⟨later, restCollected, same⟩ := bind_eq_ok.mp others
        exact
          ⟨first, later, called, (induction later).mp restCollected,
            (Except.ok.inj same).symm⟩
      · rintro ⟨first, later, called, restCalled, rfl⟩
        exact
          bind_eq_ok.mpr
            ⟨first, called,
              bind_eq_ok.mpr ⟨later, (induction later).mpr restCalled, rfl⟩⟩

theorem exists_mapM_eq_ok {β : Type} (call : α → Except ε β)
    (items : List α) :
    (∃ results, items.mapM call = .ok results) ↔
      ∀ item ∈ items, ∃ result, call item = .ok result := by
  induction items with
  | nil => exact iff_of_true ⟨[], rfl⟩ nofun
  | cons item rest induction =>
      rw [List.forall_mem_cons, ← induction, List.mapM_cons]
      constructor
      · rintro ⟨results, collected⟩
        obtain ⟨first, called, others⟩ := bind_eq_ok.mp collected
        obtain ⟨later, restCollected, _⟩ := bind_eq_ok.mp others
        exact ⟨⟨first, called⟩, later, restCollected⟩
      · rintro ⟨⟨first, called⟩, later, restCollected⟩
        exact
          ⟨first :: later,
            bind_eq_ok.mpr
              ⟨first, called, bind_eq_ok.mpr ⟨later, restCollected, rfl⟩⟩⟩

/-- The results of a loop are those of its calls. -/
theorem mem_mapM {β : Type} {call : α → Except ε β} {items : List α}
    {results : List β} (collected : items.mapM call = .ok results) (result : β) :
    result ∈ results ↔ ∃ item ∈ items, call item = .ok result := by
  rw [mapM_eq_ok] at collected
  induction collected with
  | nil => simp
  | cons called _ induction =>
      rw [List.mem_cons, induction, List.exists_mem_cons_iff]
      refine or_congr_left ⟨fun same => same ▸ called, fun other => ?_⟩
      exact Except.ok.inj (other.symm.trans called)

theorem map_eq_ok {β : Type} {first : Except ε α} {make : α → β} {result : β} :
    first.map make = .ok result ↔ ∃ value, first = .ok value ∧ make value = result := by
  cases first with
  | error failure => exact iff_of_false nofun nofun
  | ok value => simp [Except.map]

/-- The failure of a loop is the failure of one of its steps. -/
theorem foldlM_error
    {step : σ → α → Except ε σ} {items : List α} {start : σ} {failure : ε}
    (failed : items.foldlM step start = .error failure) :
    ∃ item ∈ items, ∃ state, step state item = .error failure := by
  induction items generalizing start with
  | nil => cases failed
  | cons item rest induction =>
      rw [List.foldlM_cons] at failed
      rcases bind_eq_error.mp failed with raised | ⟨next, _, later⟩
      · exact ⟨item, List.mem_cons_self, start, raised⟩
      · obtain ⟨other, member, raised⟩ := induction later
        exact ⟨other, List.mem_cons_of_mem item member, raised⟩

theorem mapM_error {β : Type} {call : α → Except ε β} {items : List α}
    {failure : ε} (failed : items.mapM call = .error failure) :
    ∃ item ∈ items, call item = .error failure := by
  induction items with
  | nil => cases failed
  | cons item rest induction =>
      rw [List.mapM_cons] at failed
      rcases bind_eq_error.mp failed with raised | ⟨result, _, later⟩
      · exact ⟨item, List.mem_cons_self, raised⟩
      · rcases bind_eq_error.mp later with raised | ⟨results, _, done⟩
        · obtain ⟨other, member, raised⟩ := induction raised
          exact ⟨other, List.mem_cons_of_mem item member, raised⟩
        · cases done

/-- A loop of checks passes when each of the checks does. -/
theorem forM_eq_ok (check : α → Except ε Unit) (items : List α) :
    forM items check = .ok () ↔ ∀ item ∈ items, check item = .ok () := by
  induction items with
  | nil => simp [pure, Except.pure]
  | cons item rest induction =>
      rw [List.forM_cons, List.forall_mem_cons, ← induction]
      cases checked : check item with
      | error failure => simp [bind, Except.bind]
      | ok passed => simp [bind, Except.bind]

end Loops
