import AgentSchedBench.Library.Dict

/-!
# Buffers by key

Items arrive with keys, and each is added to the buffer of its key.  A buffer
holds what the items of its key make of it, and the buffers are in the order
in which their keys have come first.
-/

namespace Buffers

variable {κ γ β : Type} [DecidableEq κ]

/-- The items of a key. -/
def itemsOf (key : κ) (pairs : List (κ × γ)) : List γ :=
  (pairs.filter (·.1 = key)).map Prod.snd

/-- The buffers of all items; a buffer begins with `start`. -/
def buffers (start : β) (add : β → γ → β) (pairs : List (κ × γ)) : Dict κ β :=
  pairs.foldl
    (fun dict pair =>
      dict.set pair.1 (add ((dict.get pair.1).getD start) pair.2))
    Dict.empty

variable {start : β} {add : β → γ → β}

theorem buffers_append (pairs : List (κ × γ)) (pair : κ × γ) :
    buffers start add (pairs ++ [pair]) =
      (buffers start add pairs).set pair.1
        (add (((buffers start add pairs).get pair.1).getD start) pair.2) := by
  rw [buffers, List.foldl_append]
  rfl

theorem keys_set (dict : Dict κ β) (key : κ) (value : β) :
    (dict.set key value).keys =
      if key ∈ dict.keys then dict.keys else dict.keys ++ [key] := rfl

theorem keys_buffers (pairs : List (κ × γ)) :
    (buffers start add pairs).keys = (pairs.map Prod.fst).eraseDups := by
  induction pairs using List.reverseRecOn with
  | nil => rfl
  | append_singleton pairs pair induction =>
      have known :
          pair.1 ∈ (buffers start add pairs).keys ↔
            pair.1 ∈ pairs.map Prod.fst := by
        rw [induction, List.mem_eraseDups]
      rw [buffers_append, List.map_append, List.eraseDups_append, ← induction,
        keys_set, List.map_singleton, List.removeAll]
      by_cases old : pair.1 ∈ pairs.map Prod.fst
      · rw [if_pos (known.mpr old), List.filter_cons_of_neg, List.filter_nil,
          List.eraseDups_nil, List.append_nil]
        rw [List.elem_eq_mem, decide_eq_true old]
        decide
      · rw [if_neg fun member => old (known.mp member),
          List.filter_cons_of_pos, List.filter_nil, List.eraseDups_cons]
        · rfl
        · rw [List.elem_eq_mem, decide_eq_false old]
          rfl

theorem get_buffers (pairs : List (κ × γ)) (key : κ) :
    (buffers start add pairs).get key =
      if key ∈ pairs.map Prod.fst then
        some ((itemsOf key pairs).foldl add start)
      else none := by
  induction pairs using List.reverseRecOn with
  | nil => rfl
  | append_singleton pairs pair induction =>
      rw [buffers_append, Dict.get_set, itemsOf, List.filter_append,
        List.map_append, List.map_append, ← itemsOf]
      by_cases same : key = pair.1
      · subst same
        have before :
            ((buffers start add pairs).get pair.1).getD start =
              (itemsOf pair.1 pairs).foldl add start := by
          rw [induction]
          split
          · rfl
          · next new =>
              have none : itemsOf pair.1 pairs = [] := by
                rw [itemsOf, List.map_eq_nil_iff, List.filter_eq_nil_iff]
                intro other member isKey
                exact new (List.mem_map.mpr
                  ⟨other, member, of_decide_eq_true isKey⟩)
              rw [none]
              rfl
        rw [if_pos rfl, before, if_pos (by simp)]
        simp
      · rw [if_neg same, induction, List.filter_cons_of_neg]
        · rw [List.filter_nil, List.map_nil, List.append_nil]
          simp only [List.map_cons, List.map_nil, List.mem_append,
            List.mem_singleton, same, or_false]
        · simp [Ne.symm same]

/-- The buffers in order, if the keys come first in the order of `keys`. -/
theorem values_buffers {pairs : List (κ × γ)} {keys : List κ}
    (order : (pairs.map Prod.fst).eraseDups = keys) :
    (buffers start add pairs).items.map Prod.snd =
      keys.map fun key => (itemsOf key pairs).foldl add start := by
  rw [Dict.items, keys_buffers, order, List.map_filterMap,
    ← List.filterMap_eq_map]
  refine List.filterMap_congr fun key member => ?_
  rw [← order, List.mem_eraseDups] at member
  rw [get_buffers, if_pos member]
  rfl

end Buffers
