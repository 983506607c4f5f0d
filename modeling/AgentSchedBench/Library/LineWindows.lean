import AgentSchedBench.Library.Pieces
import AgentSchedBench.Library.TextLines

/-!
# Windows of lines

A text is cut at its lines, each with what ends it.  A window is a sequence of
lines that look as given ones do; a text is cut at its windows as it is at the
occurrences of a pattern.
-/

namespace LineWindows

open Pieces TextLines

variable {α β : Type}

/-- A line, and what ends it. -/
structure EndedLine (α : Type) where
  body : List α
  ending : List α

def EndedLine.text (line : EndedLine α) : List α := line.body ++ line.ending

/-- The text of the lines. -/
def textOf (lines : List (EndedLine α)) : List α :=
  lines.flatMap EndedLine.text

/-! ## Lines -/

section Lines

variable (key : α → Char)

/-- Is a return followed by a line feed? -/
def pairs (item : α) (rest : List α) : Bool :=
  key item = '\r' && rest.head?.map key = some '\n'

/--
The lines of a text, whose first line has been read in part.  If the return
before is paired, then the first item has ended the line before.
-/
def endedLinesFrom : List α → Bool → List α → List (EndedLine α)
  | line, _, [] => if line.isEmpty then [] else [⟨line.reverse, []⟩]
  | line, true, _ :: rest => endedLinesFrom line false rest
  | line, false, item :: rest =>
      if isLineBoundary (key item) then
        ⟨line.reverse, item :: if pairs key item rest then rest.take 1 else []⟩ ::
          endedLinesFrom [] (pairs key item rest) rest
      else endedLinesFrom (item :: line) false rest

def endedLines (text : List α) : List (EndedLine α) :=
  endedLinesFrom key [] false text

theorem textOf_endedLinesFrom (line : List α) (paired : Bool)
    (items : List α) :
    textOf (endedLinesFrom key line paired items) =
      line.reverse ++ if paired then items.drop 1 else items := by
  induction items generalizing line paired with
  | nil =>
      rw [endedLinesFrom]
      cases line with
      | nil => simp [textOf]
      | cons first line => simp [textOf, EndedLine.text]
  | cons item rest induction =>
      cases paired with
      | true =>
          rw [endedLinesFrom, induction]
          simp
      | false =>
          rw [endedLinesFrom]
          split
          · have later := induction [] (pairs key item rest)
            rw [textOf] at later
            rw [textOf, List.flatMap_cons, later, EndedLine.text]
            cases pairs key item rest with
            | true => simp [-List.drop_one, List.take_append_drop]
            | false => simp
          · rw [induction]
            simp

/-- The text is that of its lines. -/
theorem textOf_endedLines (items : List α) :
    textOf (endedLines key items) = items :=
  textOf_endedLinesFrom key [] false items

/-- The bodies of the lines are what `splitlines` gives. -/
theorem endedLinesFrom_bodies (line : List α) (paired : Bool)
    (items : List α) :
    (endedLinesFrom key line paired items).map (·.body.map key) =
      splitLinesFrom (line.map key)
        ((if paired then items.drop 1 else items).map key) := by
  induction items generalizing line paired with
  | nil =>
      rw [endedLinesFrom]
      cases line with
      | nil => simp [splitLinesFrom]
      | cons first line => simp [splitLinesFrom]
  | cons item rest induction =>
      cases paired with
      | true =>
          rw [endedLinesFrom, induction]
          simp
      | false =>
          rw [endedLinesFrom]
          simp only [Bool.false_eq_true, if_false, List.map_cons]
          by_cases isReturn : key item = '\r'
          · rw [if_pos (by rw [isReturn]; decide), List.map_cons, induction,
              isReturn, splitLinesFrom_return, List.map_reverse,
              List.head?_map, pairs, isReturn]
            by_cases feeds : rest.head?.map key = some '\n'
            · simp [feeds]
            · simp [feeds]
          · have unpaired : pairs key item rest = false := by
              simp [pairs, isReturn]
            rw [splitLinesFrom_cons isReturn, unpaired]
            split
            · rw [List.map_cons, induction, List.map_reverse]
              simp
            · rw [induction]
              simp

theorem endedLines_bodies (items : List α) :
    (endedLines key items).map (·.body.map key) =
      splitLines (items.map key) :=
  endedLinesFrom_bodies key [] false items

end Lines

/-! ## Windows -/

variable [DecidableEq β] (view : EndedLine α → β) (given : List β)

/-- The lines, without what ends the last one. -/
def windowText : List (EndedLine α) → List α
  | [] => []
  | [line] => line.body
  | line :: next :: rest => line.text ++ windowText (next :: rest)

/-- What follows a window of as many lines. -/
def afterWindow : Nat → List (EndedLine α) → List α
  | 0, lines => textOf lines
  | _, [] => []
  | 1, line :: rest => line.ending ++ textOf rest
  | height + 2, _ :: rest => afterWindow (height + 1) rest

theorem windowText_append_afterWindow {height : Nat}
    {lines : List (EndedLine α)} (fits : height ≤ lines.length) :
    windowText (lines.take height) ++ afterWindow height lines =
      textOf lines := by
  induction lines generalizing height with
  | nil =>
      cases Nat.le_zero.mp fits
      rfl
  | cons line rest induction =>
      match height with
      | 0 => rfl
      | 1 =>
          rw [List.take_succ_cons, List.take_zero, windowText, afterWindow,
            ← List.append_assoc]
          rfl
      | height + 2 =>
          have later := induction (Nat.le_of_succ_le_succ fits)
          rw [afterWindow]
          cases rest with
          | nil => exact absurd fits (by simp)
          | cons next rest =>
              rw [List.take_succ_cons, List.take_succ_cons] at *
              rw [windowText, List.append_assoc, later]
              rfl

/-- The pieces, after lines of a window that are still to be passed. -/
def windowPiecesFrom : Nat → List (EndedLine α) → List (List α)
  | _, [] => [[]]
  | skip, line :: rest =>
      let starts := skip = 0 ∧ given <+: (line :: rest).map view
      let passed := if starts then given.length else skip
      let later :=
        if passed = 0 then
          (windowPiecesFrom 0 rest).modifyHead (line.text ++ ·)
        else if passed = 1 then
          (windowPiecesFrom 0 rest).modifyHead (line.ending ++ ·)
        else windowPiecesFrom (passed - 1) rest
      if starts then [] :: later else later

/-- The pieces of a text between the windows that look as given. -/
def windowPieces (lines : List (EndedLine α)) : List (List α) :=
  windowPiecesFrom view given 0 lines

/-- A region that is a window of lines. -/
def IsWindow (found : List α) : Prop :=
  ∃ window : List (EndedLine α),
    window.map view = given ∧ found = windowText window

theorem windowPiecesFrom_cut (skip : Nat) (lines : List (EndedLine α)) :
    CutAt (IsWindow view given) (afterWindow skip lines)
      (windowPiecesFrom view given skip lines) := by
  induction lines generalizing skip with
  | nil =>
      rw [windowPiecesFrom]
      match skip with
      | 0 => exact .last []
      | 1 => exact .last []
      | skip + 2 => exact .last []
  | cons line rest induction =>
      have passes (height : Nat) :
          CutAt (IsWindow view given) (afterWindow height (line :: rest))
            (if height = 0 then
              (windowPiecesFrom view given 0 rest).modifyHead (line.text ++ ·)
            else if height = 1 then
              (windowPiecesFrom view given 0 rest).modifyHead
                (line.ending ++ ·)
            else windowPiecesFrom view given (height - 1) rest) := by
        match height with
        | 0 => exact (induction 0).prepend line.text
        | 1 => exact (induction 0).prepend line.ending
        | height + 2 => exact induction (height + 1)
      rw [windowPiecesFrom]
      by_cases starts : skip = 0 ∧ given <+: (line :: rest).map view
      · simp only [if_pos starts]
        obtain ⟨rfl, isPrefix⟩ := starts
        have fits : given.length ≤ (line :: rest).length := by
          simpa using isPrefix.length_le
        rw [afterWindow, ← windowText_append_afterWindow fits]
        refine .front ⟨_, ?_, rfl⟩ (passes given.length)
        rw [List.map_take]
        exact (List.prefix_iff_eq_take.mp isPrefix).symm
      · simp only [if_neg starts]
        exact passes skip

/-- The text is the pieces with windows in between. -/
theorem windowPieces_cut (lines : List (EndedLine α)) :
    CutAt (IsWindow view given) (textOf lines)
      (windowPieces view given lines) :=
  windowPiecesFrom_cut view given 0 lines

/-- The lines at which a window starts. -/
def windowStarts (lines : List β) : List Nat :=
  (List.range (lines.length + 1 - given.length)).filter fun start =>
    (lines.drop start).take given.length = given

end LineWindows
