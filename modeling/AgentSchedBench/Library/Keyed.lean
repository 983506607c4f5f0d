import AgentSchedBench.Library.StableSort

/-!
# Items with keys

A collection that holds at most one item for each key, in the order in which
the keys came.  Two collections that give the same item for each key hold the
same items, and sorted by their keys they are the same list.
-/

/-- Items of which no two have the same key. -/
structure Keyed (α : Type) {κ : Type} (key : α → κ) where
  items : List α
  distinct : (items.map key).Nodup

namespace Keyed

variable {α κ : Type} {key : α → κ}

def empty : Keyed α key := ⟨[], List.nodup_nil⟩

variable [DecidableEq κ]

/-- The item with the key. -/
def get (held : Keyed α key) (wanted : κ) : Option α :=
  held.items.find? fun item => key item = wanted

@[simp]
theorem get_empty (wanted : κ) : (empty : Keyed α key).get wanted = none := rfl

section Get

variable {held : Keyed α key} {item : α} {wanted : κ}

theorem find?_eq_some {items : List α} (distinct : (items.map key).Nodup) :
    (items.find? fun item => key item = wanted) = some item ↔
      item ∈ items ∧ key item = wanted := by
  constructor
  · intro found
    exact ⟨List.mem_of_find?_eq_some found,
      by simpa using List.find?_some found⟩
  · rintro ⟨member, rfl⟩
    cases found : items.find? fun other => key other = key item with
    | none =>
        exact absurd (decide_eq_true rfl) (List.find?_eq_none.mp found item member)
    | some other =>
        have same : key other = key item := by
          simpa using List.find?_some found
        have isMember := List.mem_of_find?_eq_some found
        rw [List.inj_on_of_nodup_map distinct isMember member same]

theorem get_eq_some :
    held.get wanted = some item ↔ item ∈ held.items ∧ key item = wanted :=
  find?_eq_some held.distinct

theorem get_of_mem (member : item ∈ held.items) :
    held.get (key item) = some item :=
  get_eq_some.mpr ⟨member, rfl⟩

end Get

/-- Put an item in the place of the one with its key, or at the end. -/
def put (held : Keyed α key) (item : α) : Keyed α key where
  items :=
    if key item ∈ held.items.map key then
      held.items.map fun other => if key other = key item then item else other
    else held.items ++ [item]
  distinct := by
    split
    · have same : ((held.items.map fun other =>
          if key other = key item then item else other).map key) =
            held.items.map key := by
        rw [List.map_map]
        refine List.map_congr_left fun other _ => ?_
        rw [Function.comp_apply]
        split
        · next same => exact same.symm
        · rfl
      rw [same]
      exact held.distinct
    · next absent =>
        rw [List.map_append, List.map_singleton, ← List.concat_eq_append]
        exact held.distinct.concat absent

theorem items_put (held : Keyed α key) (item : α) :
    (held.put item).items =
      if key item ∈ held.items.map key then
        held.items.map fun other => if key other = key item then item else other
      else held.items ++ [item] := rfl

theorem mem_put {held : Keyed α key} {item other : α} :
    other ∈ (held.put item).items ↔
      other = item ∨ other ∈ held.items ∧ key other ≠ key item := by
  rw [items_put]
  split
  · next present =>
      rw [List.mem_map] at present ⊢
      constructor
      · rintro ⟨source, member, rfl⟩
        split
        · exact Or.inl rfl
        · next differs => exact Or.inr ⟨member, differs⟩
      · rintro (rfl | ⟨member, differs⟩)
        · obtain ⟨source, member, same⟩ := present
          exact ⟨source, member, if_pos same⟩
        · exact ⟨other, member, if_neg differs⟩
  · next absent =>
      rw [List.mem_append, List.mem_singleton]
      constructor
      · rintro (member | rfl)
        · refine Or.inr ⟨member, fun same => absent ?_⟩
          exact same ▸ List.mem_map_of_mem member
        · exact Or.inl rfl
      · rintro (rfl | ⟨member, -⟩)
        · exact Or.inr rfl
        · exact Or.inl member

@[simp]
theorem get_put (held : Keyed α key) (item : α) (wanted : κ) :
    (held.put item).get wanted =
      if wanted = key item then some item else held.get wanted := by
  ext other
  rw [get_eq_some, mem_put]
  split
  · next same =>
      rw [Option.some_inj]
      constructor
      · rintro ⟨rfl | ⟨-, differs⟩, isKey⟩
        · rfl
        · exact absurd (isKey.trans same) differs
      · rintro rfl
        exact ⟨Or.inl rfl, same.symm⟩
  · next differs =>
      rw [get_eq_some]
      constructor
      · rintro ⟨rfl | ⟨member, -⟩, isKey⟩
        · exact absurd isKey.symm differs
        · exact ⟨member, isKey⟩
      · rintro ⟨member, rfl⟩
        exact ⟨Or.inr ⟨member, differs⟩, rfl⟩

/-- Leave out the item with the key. -/
def remove (held : Keyed α key) (unwanted : κ) : Keyed α key where
  items := held.items.filter fun item => key item ≠ unwanted
  distinct := held.distinct.sublist (List.filter_sublist.map key)

@[simp]
theorem get_remove (held : Keyed α key) (unwanted wanted : κ) :
    (held.remove unwanted).get wanted =
      if wanted = unwanted then none else held.get wanted := by
  ext item
  rw [get_eq_some, remove, List.mem_filter, decide_eq_true_iff]
  split
  · next same =>
      constructor
      · rintro ⟨⟨-, differs⟩, rfl⟩
        exact absurd same differs
      · rintro ⟨⟩
  · next differs =>
      rw [get_eq_some]
      constructor
      · rintro ⟨⟨member, -⟩, isKey⟩
        exact ⟨member, isKey⟩
      · rintro ⟨member, rfl⟩
        exact ⟨⟨member, differs⟩, rfl⟩

/-! ## Loops -/

/-- A loop that puts the items of a list, so that the last one with a key stays. -/
def ofList (items : List α) : Keyed α key := items.foldl put empty

/-- What a loop over items with distinct keys does to the item of a key, where
each turn is about the item of its own key. -/
theorem get_foldl_own {β : Type} {own : β → κ} {turn : Keyed α key → β → Keyed α key}
    (value : Option α → β → Option α)
    (isTurn : ∀ held source wanted,
      (turn held source).get wanted =
        if wanted = own source then value (held.get wanted) source
        else held.get wanted)
    {sources : List β} (distinct : (sources.map own).Nodup) (held : Keyed α key)
    (wanted : κ) :
    (sources.foldl turn held).get wanted =
      ((sources.find? fun source => own source = wanted).map
        (value (held.get wanted))).getD (held.get wanted) := by
  induction sources generalizing held with
  | nil => rfl
  | cons source sources induction =>
      rw [List.map_cons, List.nodup_cons] at distinct
      rw [List.foldl_cons, induction distinct.2, isTurn, List.find?_cons]
      by_cases same : own source = wanted
      · have absent : (sources.find? fun other => own other = wanted) = none := by
          refine List.find?_eq_none.mpr fun other member isKey => distinct.1 ?_
          rw [same, ← of_decide_eq_true isKey]
          exact List.mem_map_of_mem member
        rw [absent, if_pos same.symm, decide_eq_true same]
        rfl
      · rw [if_neg (Ne.symm same), decide_eq_false same]

theorem get_ofList {items : List α} (distinct : (items.map key).Nodup)
    (wanted : κ) :
    (ofList items : Keyed α key).get wanted =
      items.find? fun item => key item = wanted := by
  rw [ofList, get_foldl_own (fun _ => some) get_put distinct]
  cases items.find? fun item => key item = wanted <;> rfl

/-! ## Order -/

/-- The collections give the same item for each key. -/
def Same (held other : Keyed α key) : Prop :=
  ∀ wanted, held.get wanted = other.get wanted

theorem Same.perm {held other : Keyed α key} (same : held.Same other) :
    held.items.Perm other.items := by
  refine (List.perm_ext_iff_of_nodup held.distinct.of_map other.distinct.of_map).mpr
    fun item => ?_
  constructor
  · intro member
    exact (get_eq_some.mp ((same _).symm.trans (get_of_mem member))).1
  · intro member
    exact (get_eq_some.mp ((same _).trans (get_of_mem member))).1

end Keyed

namespace Keyed

variable {α κ : Type} {key : α → κ} [LinearOrder κ]

/-- The items in the order of their keys. -/
def sorted (held : Keyed α key) : List α := StableSort.sortBy key held.items

theorem sorted_perm (held : Keyed α key) : held.sorted.Perm held.items :=
  StableSort.sortBy_perm key held.items

@[simp]
theorem mem_sorted {held : Keyed α key} {item : α} :
    item ∈ held.sorted ↔ item ∈ held.items :=
  held.sorted_perm.mem_iff

theorem nodup_sorted (held : Keyed α key) : (held.sorted.map key).Nodup :=
  ((held.sorted_perm.map key).nodup_iff).mpr held.distinct

/-- The keys go up. -/
theorem pairwise_sorted (held : Keyed α key) :
    held.sorted.Pairwise fun item other => key item < key other := by
  have distinct := List.pairwise_map.mp held.nodup_sorted
  exact (StableSort.sortBy_sorted key held.items).and distinct |>.imp
    fun ⟨le, ne⟩ => lt_of_le_of_ne le ne

/-- The same items, in the order of their keys. -/
def sort (held : Keyed α key) : Keyed α key := ⟨held.sorted, held.nodup_sorted⟩

@[simp]
theorem items_sort (held : Keyed α key) : held.sort.items = held.sorted := rfl

@[simp]
theorem get_sort (held : Keyed α key) (wanted : κ) :
    held.sort.get wanted = held.get wanted := by
  ext item
  rw [get_eq_some, get_eq_some, items_sort, mem_sorted]

/-- The order in which the keys came is lost. -/
theorem Same.sorted_eq {held other : Keyed α key} (same : held.Same other) :
    held.sorted = other.sorted := by
  refine List.Perm.eq_of_pairwise (fun item next _ _ before after => ?_)
    held.pairwise_sorted other.pairwise_sorted ?_
  · exact absurd (before.trans after) (lt_irrefl _)
  · exact held.sorted_perm.trans (same.perm.trans other.sorted_perm.symm)

theorem Same.sort_eq {held other : Keyed α key} (same : held.Same other) :
    held.sort = other.sort := by
  have isItems : held.sorted = other.sorted := same.sorted_eq
  rw [sort, sort]
  congr 1

/-- Put one by one, the sorted items are the same collection. -/
theorem ofList_sorted (held : Keyed α key) : (ofList held.sorted).Same held := by
  intro wanted
  rw [get_ofList held.nodup_sorted]
  ext item
  rw [find?_eq_some held.nodup_sorted, get_eq_some, mem_sorted]

end Keyed
