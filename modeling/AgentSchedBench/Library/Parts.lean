import Mathlib.Data.List.Perm.Basic

/-!
# Lists in parts

Two lists made of parts hold the same items if each part of the one holds the
items of the same part of the other, when the items say what part they are of.
-/

namespace Parts

variable {ι β κ : Type}

/-- Lists whose items are told apart, and put together. -/
theorem perm_append_iff {front back front' back' : List β} (first : β → Bool)
    (inFront : ∀ item ∈ front, first item = true)
    (inFront' : ∀ item ∈ front', first item = true)
    (inBack : ∀ item ∈ back, first item = false)
    (inBack' : ∀ item ∈ back', first item = false) :
    (front ++ back).Perm (front' ++ back') ↔
      front.Perm front' ∧ back.Perm back' := by
  have keepsFront {front back : List β}
      (inFront : ∀ item ∈ front, first item = true)
      (inBack : ∀ item ∈ back, first item = false) :
      (front ++ back).filter first = front := by
    rw [List.filter_append, List.filter_eq_self.mpr inFront,
      List.filter_eq_nil_iff.mpr (by simpa using inBack), List.append_nil]
  have keepsBack {front back : List β}
      (inFront : ∀ item ∈ front, first item = true)
      (inBack : ∀ item ∈ back, first item = false) :
      (front ++ back).filter (!first ·) = back := by
    rw [List.filter_append, List.filter_eq_nil_iff.mpr (by simpa using inFront),
      List.filter_eq_self.mpr (by simpa using inBack), List.nil_append]
  constructor
  · intro same
    have frontSame := same.filter first
    have backSame := same.filter (!first ·)
    rw [keepsFront inFront inBack, keepsFront inFront' inBack'] at frontSame
    rw [keepsBack inFront inBack, keepsBack inFront' inBack'] at backSame
    exact ⟨frontSame, backSame⟩
  · rintro ⟨frontSame, backSame⟩
    exact frontSame.append backSame

/-- The parts are compared one by one. -/
theorem perm_flatMap_iff [DecidableEq κ] {parts : List ι}
    {left right : ι → List β} (label : ι → κ) (labelOf : β → κ)
    (distinct : (parts.map label).Nodup)
    (leftLabel : ∀ part, ∀ item ∈ left part, labelOf item = label part)
    (rightLabel : ∀ part, ∀ item ∈ right part, labelOf item = label part) :
    (parts.flatMap left).Perm (parts.flatMap right) ↔
      ∀ part ∈ parts, (left part).Perm (right part) := by
  induction parts with
  | nil => simp
  | cons part rest induction =>
      rw [List.map_cons, List.nodup_cons] at distinct
      have other {items : ι → List β}
          (isLabel : ∀ part, ∀ item ∈ items part, labelOf item = label part) :
          ∀ item ∈ rest.flatMap items,
            decide (labelOf item = label part) = false := by
        intro item member
        obtain ⟨later, laterMember, itemMember⟩ := List.mem_flatMap.mp member
        rw [decide_eq_false_iff_not, isLabel later item itemMember]
        intro same
        exact distinct.1 (List.mem_map.mpr ⟨later, laterMember, same⟩)
      rw [List.flatMap_cons, List.flatMap_cons,
        perm_append_iff (fun item => decide (labelOf item = label part))
          (fun item member => decide_eq_true (leftLabel part item member))
          (fun item member => decide_eq_true (rightLabel part item member))
          (other leftLabel) (other rightLabel),
        induction distinct.2, List.forall_mem_cons]

end Parts
