import Mathlib.Data.List.Infix

/-!
# Pieces of a text

A text is cut at the places where a pattern occurs, from the left and without
overlap.  Replacing the pattern puts another text between the pieces.  The
items of the text are compared with those of the pattern by a key, so that a
text of one kind can be cut as its image is.
-/

namespace Pieces

variable {α β γ : Type}

/-- The list is the pieces with a region between each two of them. -/
inductive CutAt (region : List α → Prop) :
    List α → List (List α) → Prop where
  | last (piece : List α) : CutAt region piece [piece]
  | cut (piece : List α) {found rest : List α} {pieces : List (List α)}
      (isRegion : region found) (later : CutAt region rest pieces) :
      CutAt region (piece ++ (found ++ rest)) (piece :: pieces)

namespace CutAt

variable {region : List α → Prop} {items : List α} {pieces : List (List α)}

theorem ne_nil (isCut : CutAt region items pieces) : pieces ≠ [] := by
  cases isCut with
  | last => nofun
  | cut => nofun

theorem isInfix (isCut : CutAt region items pieces) :
    ∀ piece ∈ pieces, piece <:+: items := by
  induction isCut with
  | last piece => simp
  | cut piece _ _ induction =>
      rw [List.forall_mem_cons]
      refine ⟨(List.prefix_append _ _).isInfix, fun other member => ?_⟩
      exact
        (induction other member).trans
          (List.suffix_append_of_suffix (List.suffix_append _ _)).isInfix

/-- What stands before the first piece belongs to it. -/
theorem prepend (front : List α) (isCut : CutAt region items pieces) :
    CutAt region (front ++ items) (pieces.modifyHead (front ++ ·)) := by
  cases isCut with
  | last piece => exact last _
  | cut piece isRegion later =>
      rw [← List.append_assoc]
      exact cut _ isRegion later

theorem region_mono {other : List α → Prop}
    (implies : ∀ found, region found → other found)
    (isCut : CutAt region items pieces) : CutAt other items pieces := by
  induction isCut with
  | last piece => exact last piece
  | cut piece isRegion _ induction =>
      exact cut piece (implies _ isRegion) induction

end CutAt

variable [DecidableEq β] (key : α → β) (pattern : List β)

/-- How many places may still be cut. -/
def Spent (limit : Option Nat) : Prop := limit = some 0

instance (limit : Option Nat) : Decidable (Spent limit) :=
  inferInstanceAs (Decidable (limit = some 0))

/-- The empty pattern occurs before each item and at the end. -/
def emptyPieces : Option Nat → List α → List (List α)
  | limit, [] => if Spent limit then [[]] else [[], []]
  | limit, item :: rest =>
      if Spent limit then [item :: rest]
      else
        [] ::
          (emptyPieces (limit.map (· - 1)) rest).modifyHead (item :: ·)

/-- The pieces, after items of an occurrence that are still to be passed. -/
def piecesFrom : Option Nat → Nat → List α → List (List α)
  | _, _, [] => [[]]
  | limit, skip + 1, _ :: rest => piecesFrom limit skip rest
  | limit, 0, item :: rest =>
      if ¬ Spent limit ∧ pattern <+: (item :: rest).map key then
        [] :: piecesFrom (limit.map (· - 1)) (pattern.length - 1) rest
      else (piecesFrom limit 0 rest).modifyHead (item :: ·)

/-- The pieces between the occurrences of the pattern, up to a limit. -/
def pieces (limit : Option Nat) (items : List α) : List (List α) :=
  if pattern = [] then emptyPieces limit items
  else piecesFrom key pattern limit 0 items

/-- `text.count(pattern)` -/
def count (items : List α) : Nat :=
  (pieces key pattern none items).length - 1

/-- `text.replace(pattern, new, limit)` -/
def replace (pattern new : List β) (limit : Option Nat) (text : List β) :
    List β :=
  new.intercalate (pieces id pattern limit text)

section Cut

/-- A region at the front leaves an empty piece before it. -/
theorem CutAt.front {region : List α → Prop} {found rest : List α}
    {pieces : List (List α)} (isRegion : region found)
    (later : CutAt region rest pieces) :
    CutAt region (found ++ rest) ([] :: pieces) :=
  .cut [] isRegion later

theorem emptyPieces_cut (limit : Option Nat) (items : List α) :
    CutAt (fun found => found.isEmpty) items (emptyPieces limit items) := by
  have front {rest : List α} {cuts : List (List α)}
      (later : CutAt (fun found => found.isEmpty) rest cuts) :
      CutAt (fun found => found.isEmpty) ([] ++ rest) ([] :: cuts) :=
    .front rfl later
  induction items generalizing limit with
  | nil =>
      rw [emptyPieces]
      split
      · exact .last []
      · exact front (.last [])
  | cons item rest induction =>
      rw [emptyPieces]
      split
      · exact .last _
      · exact front ((induction _).prepend [item])

variable {pattern} (nonempty : pattern ≠ [])

include nonempty in
theorem piecesFrom_cut (limit : Option Nat) (skip : Nat) (items : List α)
    (reaches : skip ≤ items.length) :
    CutAt (fun found => found.map key = pattern) (items.drop skip)
      (piecesFrom key pattern limit skip items) := by
  induction items generalizing limit skip with
  | nil =>
      rw [piecesFrom, List.drop_nil]
      exact .last []
  | cons item rest induction =>
      cases skip with
      | succ skip =>
          rw [piecesFrom, List.drop_succ_cons]
          exact induction limit skip (Nat.le_of_succ_le_succ reaches)
      | zero =>
          rw [piecesFrom, List.drop_zero]
          split
          · next occurs =>
            have length : 0 < pattern.length :=
              List.length_pos_iff.mpr nonempty
            have fits : pattern.length ≤ rest.length + 1 := by
              simpa using occurs.2.length_le
            have same : ((item :: rest).take pattern.length).map key =
                pattern := by
              rw [List.map_take]
              exact (List.prefix_iff_eq_take.mp occurs.2).symm
            have later :=
              induction (limit.map (· - 1)) (pattern.length - 1) (by omega)
            have whole :
                CutAt (fun found => found.map key = pattern) _ _ :=
              .front same later
            have back :
                (item :: rest).take pattern.length ++
                  rest.drop (pattern.length - 1) = item :: rest := by
              obtain ⟨less, isSucc⟩ := Nat.exists_eq_succ_of_ne_zero length.ne'
              rw [isSucc]
              simp
            rwa [back] at whole
          · exact (induction limit 0 (Nat.zero_le _)).prepend [item]

end Cut

/-- The items are the pieces with occurrences of the pattern in between. -/
theorem pieces_cut (limit : Option Nat) (items : List α) :
    CutAt (fun found => found.map key = pattern) items
      (pieces key pattern limit items) := by
  rw [pieces]
  split
  · next isEmpty =>
    refine (emptyPieces_cut limit items).region_mono ?_
    intro found isNil
    rw [List.isEmpty_iff.mp isNil, isEmpty, List.map_nil]
  · next nonempty =>
    exact piecesFrom_cut key nonempty limit 0 items (Nat.zero_le _)

/-! ## Images -/

theorem map_modifyHead_cons (image : γ → α) (item : γ)
    (cuts : List (List γ)) :
    (cuts.modifyHead (item :: ·)).map (List.map image) =
      (cuts.map (List.map image)).modifyHead (image item :: ·) := by
  cases cuts with
  | nil => rfl
  | cons first others => rfl

theorem emptyPieces_map (image : γ → α) (limit : Option Nat)
    (items : List γ) :
    emptyPieces limit (items.map image) =
      (emptyPieces limit items).map (List.map image) := by
  induction items generalizing limit with
  | nil =>
      rw [List.map_nil, emptyPieces, emptyPieces]
      split <;> rfl
  | cons item rest induction =>
      rw [List.map_cons, emptyPieces, emptyPieces]
      split
      · rfl
      · rw [induction, List.map_cons, map_modifyHead_cons, List.map_nil]

theorem piecesFrom_map (image : γ → α) (limit : Option Nat) (skip : Nat)
    (items : List γ) :
    piecesFrom key pattern limit skip (items.map image) =
      (piecesFrom (key ∘ image) pattern limit skip items).map
        (List.map image) := by
  induction items generalizing limit skip with
  | nil => rfl
  | cons item rest induction =>
      cases skip with
      | succ skip =>
          rw [List.map_cons, piecesFrom, piecesFrom, induction]
      | zero =>
          rw [List.map_cons, piecesFrom, piecesFrom, ← List.map_cons,
            List.map_map]
          split
          · rw [induction, List.map_cons, List.map_nil]
          · rw [induction, map_modifyHead_cons]

/-- The pieces of an image are the images of the pieces. -/
theorem pieces_map (image : γ → α) (limit : Option Nat) (items : List γ) :
    pieces key pattern limit (items.map image) =
      (pieces (key ∘ image) pattern limit items).map (List.map image) := by
  rw [pieces, pieces]
  split
  · exact emptyPieces_map image limit items
  · exact piecesFrom_map key pattern image limit 0 items

/-! ## Limits -/

theorem emptyPieces_length_pos (limit : Option Nat) (items : List α) :
    0 < (emptyPieces limit items).length :=
  List.length_pos_iff.mpr (emptyPieces_cut limit items).ne_nil

/-- A limit that is not reached does not count. -/
theorem emptyPieces_within (limit : Nat) (items : List α)
    (within : (emptyPieces none items).length ≤ limit + 1) :
    emptyPieces (some limit) items = emptyPieces none items := by
  induction items generalizing limit with
  | nil =>
      cases limit with
      | zero => simp [emptyPieces, Spent] at within
      | succ limit => rfl
  | cons item rest induction =>
      have longer := emptyPieces_length_pos none rest
      simp only [emptyPieces, Spent, reduceCtorEq, if_false, Option.map_none,
        List.length_cons, List.length_modifyHead] at within
      cases limit with
      | zero => omega
      | succ limit =>
          rw [emptyPieces, emptyPieces, if_neg (by simp [Spent]),
            if_neg (by simp [Spent])]
          simp only [Option.map_some, Option.map_none, Nat.add_sub_cancel]
          rw [induction limit (by omega)]

theorem piecesFrom_length_pos (limit : Option Nat) (skip : Nat)
    (items : List α) : 0 < (piecesFrom key pattern limit skip items).length := by
  induction items generalizing limit skip with
  | nil => simp [piecesFrom]
  | cons item rest induction =>
      cases skip with
      | succ skip => exact induction limit skip
      | zero =>
          rw [piecesFrom]
          split
          · simp
          · rw [List.length_modifyHead]
            exact induction limit 0

theorem piecesFrom_within (limit skip : Nat) (items : List α)
    (within :
      (piecesFrom key pattern none skip items).length ≤ limit + 1) :
    piecesFrom key pattern (some limit) skip items =
      piecesFrom key pattern none skip items := by
  induction items generalizing limit skip with
  | nil => rfl
  | cons item rest induction =>
      cases skip with
      | succ skip => exact induction limit skip within
      | zero =>
          rw [piecesFrom] at within
          rw [piecesFrom, piecesFrom]
          by_cases occurs : pattern <+: (item :: rest).map key
          · rw [if_pos ⟨by simp [Spent], occurs⟩, List.length_cons] at within
            have longer :=
              piecesFrom_length_pos key pattern none (pattern.length - 1) rest
            simp only [Option.map_none] at within
            cases limit with
            | zero => omega
            | succ limit =>
                rw [if_pos ⟨by simp [Spent], occurs⟩,
                  if_pos ⟨by simp [Spent], occurs⟩]
                simp only [Option.map_some, Option.map_none,
                  Nat.add_sub_cancel]
                rw [induction limit _ (by omega)]
          · rw [if_neg (fun both => occurs both.2),
              List.length_modifyHead] at within
            rw [if_neg (fun both => occurs both.2),
              if_neg (fun both => occurs both.2), induction limit 0 within]

theorem pieces_within (limit : Nat) (items : List α)
    (within : (pieces key pattern none items).length ≤ limit + 1) :
    pieces key pattern (some limit) items =
      pieces key pattern none items := by
  rw [pieces] at within ⊢
  rw [pieces]
  split at within
  · next isEmpty =>
    rw [if_pos isEmpty, if_pos isEmpty]
    exact emptyPieces_within limit items within
  · next nonempty =>
    rw [if_neg nonempty, if_neg nonempty]
    exact piecesFrom_within key pattern limit 0 items within

/-! ## Occurrences -/

theorem emptyPieces_length (items : List α) :
    1 < (emptyPieces none items).length := by
  cases items with
  | nil => simp [emptyPieces, Spent]
  | cons item rest =>
      have later := emptyPieces_length_pos none rest
      simp only [emptyPieces, Spent, reduceCtorEq, if_false, Option.map_none,
        List.length_cons, List.length_modifyHead]
      omega

theorem piecesFrom_length {items : List α}
    (nonempty : pattern ≠ []) (occurs : pattern <:+: items.map key) :
    1 < (piecesFrom key pattern none 0 items).length := by
  induction items with
  | nil => exact absurd (List.eq_nil_of_infix_nil occurs) nonempty
  | cons item rest induction =>
      rw [piecesFrom]
      split
      · rw [List.length_cons]
        exact Nat.succ_lt_succ (piecesFrom_length_pos key pattern _ _ rest)
      · next elsewhere =>
        rw [List.map_cons] at occurs
        rcases List.infix_cons_iff.mp occurs with front | later
        · exact absurd ⟨by simp [Spent], front⟩ elsewhere
        · rw [List.length_modifyHead]
          exact induction later

/-- A text in which a pattern occurs has more than one piece. -/
theorem count_pos {items : List α} (occurs : pattern <:+: items.map key) :
    0 < count key pattern items := by
  refine Nat.sub_pos_of_lt ?_
  rw [pieces]
  split
  · exact emptyPieces_length items
  · next nonempty => exact piecesFrom_length key pattern nonempty occurs

theorem count_map (image : γ → α) (items : List γ) :
    count key pattern (items.map image) =
      count (key ∘ image) pattern items := by
  rw [count, pieces_map, List.length_map, count]

/-! ## Pieces from a text -/

theorem getElem?_tail {front back : List α} {first last : α} (most : Nat)
    (index : Nat) (after : front.length ≤ index)
    (before : index < front.length + most) :
    (front ++ (List.replicate most first ++ (last :: back)))[index]? =
      some first := by
  rw [List.getElem?_append_right after,
    List.getElem?_append_left (by rw [List.length_replicate]; omega)]
  exact List.getElem?_replicate_of_lt (by omega)

theorem getElem?_last {front back : List α} {first last : α} (most : Nat) :
    (front ++ (List.replicate most first ++ (last :: back)))[
      front.length + most]? = some last := by
  rw [List.getElem?_append_right (by omega), Nat.add_sub_cancel_left,
    List.getElem?_append_right (by rw [List.length_replicate]),
    List.length_replicate, Nat.sub_self, List.getElem?_cons_zero]

/-- The last item cannot stand where the other text has its first ones. -/
theorem length_le_of_append_eq {first last : α} (differ : first ≠ last)
    {most : Nat} {front other back behind : List α}
    (short : other.length ≤ most)
    (same :
      front ++ (List.replicate most first ++ (last :: back)) =
        other ++ (List.replicate most first ++ (last :: behind))) :
    other.length ≤ front.length := by
  by_contra longer
  rw [Nat.not_le] at longer
  have isLast :=
    congrArg (fun items => items[front.length + most]?) same
  simp only [getElem?_last] at isLast
  rw [getElem?_tail most _ (by omega) (by omega)] at isLast
  exact differ (Option.some.inj isLast).symm

/-- A text that is longer than the pieces tells where they are. -/
theorem intercalate_injective {first last : α} (differ : first ≠ last)
    (most : Nat) {cuts others : List (List α)} (cutsNonempty : cuts ≠ [])
    (othersNonempty : others ≠ [])
    (cutsShort : ∀ piece ∈ cuts, piece.length ≤ most)
    (othersShort : ∀ piece ∈ others, piece.length ≤ most)
    (same :
      (List.replicate most first ++ [last]).intercalate cuts =
        (List.replicate most first ++ [last]).intercalate others) :
    cuts = others := by
  induction cuts generalizing others with
  | nil => exact absurd rfl cutsNonempty
  | cons piece cuts induction =>
      obtain ⟨other, others, rfl⟩ := List.exists_cons_of_ne_nil othersNonempty
      rw [List.forall_mem_cons] at cutsShort othersShort
      have pieceShort := cutsShort.1
      have otherShort := othersShort.1
      by_cases cutsEnd : cuts = []
      · by_cases othersEnd : others = []
        · simpa [cutsEnd, othersEnd] using same
        · have lengths := congrArg List.length same
          rw [cutsEnd, List.intercalate_singleton,
            List.intercalate_cons_of_ne_nil othersEnd] at lengths
          simp only [List.length_append, List.length_replicate,
            List.length_singleton] at lengths
          omega
      · by_cases othersEnd : others = []
        · have lengths := congrArg List.length same
          rw [othersEnd, List.intercalate_singleton,
            List.intercalate_cons_of_ne_nil cutsEnd] at lengths
          simp only [List.length_append, List.length_replicate,
            List.length_singleton] at lengths
          omega
        · rw [List.intercalate_cons_of_ne_nil cutsEnd,
            List.intercalate_cons_of_ne_nil othersEnd] at same
          simp only [List.append_assoc, List.singleton_append] at same
          have sameLength : piece.length = other.length :=
            Nat.le_antisymm
              (length_le_of_append_eq differ pieceShort same.symm)
              (length_le_of_append_eq differ otherShort same)
          obtain ⟨rfl, later⟩ := List.append_inj same sameLength
          have rest :=
            List.tail_eq_of_cons_eq (List.append_cancel_left later)
          rw [induction cutsEnd othersEnd cutsShort.2 othersShort.2 rest]

end Pieces
