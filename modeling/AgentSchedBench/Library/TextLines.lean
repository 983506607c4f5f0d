import Mathlib.Data.List.Infix

/-!
# Lines of a text

`splitLines` is Python's `str.splitlines`.  A line ends at any of the Unicode
line boundaries, of which the line feed is one.  A text is given by its
characters.
-/

namespace TextLines

def isLineBoundary (char : Char) : Bool :=
  (10 ≤ char.toNat && char.toNat ≤ 13) ||
    (28 ≤ char.toNat && char.toNat ≤ 30) ||
    [0x85, 0x2028, 0x2029].contains char.toNat

/-- The lines of a text, whose first line has been read in part. -/
def splitLinesFrom (line : List Char) : List Char → List (List Char)
  | [] => if line = [] then [] else [line.reverse]
  | '\r' :: '\n' :: rest => line.reverse :: splitLinesFrom [] rest
  | char :: rest =>
      if isLineBoundary char then line.reverse :: splitLinesFrom [] rest
      else splitLinesFrom (char :: line) rest

/-- `text.splitlines()` -/
def splitLines (text : List Char) : List (List Char) :=
  splitLinesFrom [] text

theorem splitLinesFrom_cons {char : Char} (notReturn : char ≠ '\r')
    (line rest : List Char) :
    splitLinesFrom line (char :: rest) =
      if isLineBoundary char then line.reverse :: splitLinesFrom [] rest
      else splitLinesFrom (char :: line) rest := by
  rw [splitLinesFrom.eq_def]
  split <;> simp_all

theorem splitLinesFrom_return (line rest : List Char) :
    splitLinesFrom line ('\r' :: rest) =
      line.reverse ::
        splitLinesFrom [] (if rest.head? = some '\n' then rest.tail else rest)
    := by
  rw [splitLinesFrom.eq_def]
  split
  · next same => cases same
  · next tail same =>
    cases same
    rfl
  · next unpaired same =>
    cases same
    rw [if_pos (by decide), if_neg]
    cases rest with
    | nil => nofun
    | cons first tail =>
        rintro ⟨⟩
        exact unpaired tail rfl rfl

theorem splitLinesFrom_eq_nil {line text : List Char} :
    splitLinesFrom line text = [] ↔ line = [] ∧ text = [] := by
  induction text generalizing line with
  | nil =>
      rw [splitLinesFrom]
      split
      · next isEmpty => exact iff_of_true rfl ⟨isEmpty, rfl⟩
      · next notEmpty =>
          exact iff_of_false (List.cons_ne_nil _ _) fun both =>
            notEmpty both.1
  | cons char rest induction =>
      refine iff_of_false ?_ fun both => List.cons_ne_nil _ _ both.2
      by_cases isReturn : char = '\r'
      · rw [isReturn, splitLinesFrom_return]
        exact List.cons_ne_nil _ _
      · rw [splitLinesFrom_cons isReturn]
        split
        · exact List.cons_ne_nil _ _
        · exact fun none => List.cons_ne_nil _ _ (induction.mp none).1

/-- Only an empty text has no lines. -/
theorem splitLines_eq_nil {text : List Char} :
    splitLines text = [] ↔ text = [] := by
  rw [splitLines, splitLinesFrom_eq_nil]
  exact ⟨And.right, fun isEmpty => ⟨rfl, isEmpty⟩⟩

/-- A line ends at its first boundary. -/
theorem splitLines_append {line : List Char}
    (noBoundary : ∀ char ∈ line, isLineBoundary char = false)
    {boundary : Char} (isBoundary : isLineBoundary boundary = true)
    (notReturn : boundary ≠ '\r') (rest : List Char) :
    splitLines (line ++ boundary :: rest) = line :: splitLines rest := by
  suffices general :
      ∀ front,
        splitLinesFrom front (line ++ boundary :: rest) =
          (front.reverse ++ line) :: splitLinesFrom [] rest from
    general []
  intro front
  induction line generalizing front with
  | nil =>
      rw [List.nil_append, splitLinesFrom_cons notReturn, if_pos isBoundary,
        List.append_nil]
  | cons char line induction =>
      rw [List.forall_mem_cons] at noBoundary
      have noReturn : char ≠ '\r' := by
        rintro rfl
        exact absurd noBoundary.1 (by decide)
      rw [List.cons_append, splitLinesFrom_cons noReturn,
        if_neg (by simp [noBoundary.1]), induction noBoundary.2,
        List.reverse_cons, List.append_assoc, List.singleton_append]

/-! ## Newlines -/

/-- A carriage return, as a line feed. -/
def asLineFeed (char : Char) : Char := if char = '\r' then '\n' else char

/-- What a pipe in text mode makes of newlines. -/
def translateNewlines : List Char → List Char
  | [] => []
  | '\r' :: '\n' :: rest => '\n' :: translateNewlines rest
  | char :: rest => asLineFeed char :: translateNewlines rest

/-- Is a carriage return followed by a line feed? -/
def Paired (text : List Char) : Prop := ['\r', '\n'] <:+: text

instance (text : List Char) : Decidable (Paired text) :=
  inferInstanceAs (Decidable (_ <:+: _))

theorem translateNewlines_cons {char : Char} {rest : List Char}
    (unpaired : ∀ tail, char :: rest ≠ '\r' :: '\n' :: tail) :
    translateNewlines (char :: rest) =
      asLineFeed char :: translateNewlines rest := by
  rw [translateNewlines.eq_def]
  split
  · next same => cases same
  · next tail same => exact absurd same (unpaired tail)
  · next same =>
      cases same
      rfl

/-- Without pairs each character is translated by itself. -/
theorem translateNewlines_eq_map {text : List Char}
    (unpaired : ¬ Paired text) :
    translateNewlines text = text.map asLineFeed := by
  induction text with
  | nil => rfl
  | cons char rest induction =>
      rw [translateNewlines_cons, induction, List.map_cons]
      · exact fun paired => unpaired (paired.trans (List.suffix_cons _ _).isInfix)
      · rintro tail same
        exact unpaired (same ▸ ⟨[], tail, rfl⟩)

theorem length_translateNewlines_le (text : List Char) :
    (translateNewlines text).length ≤ text.length := by
  induction text using translateNewlines.induct with
  | case1 => exact Nat.le_refl _
  | case2 rest induction =>
      rw [translateNewlines]
      simp only [List.length_cons]
      omega
  | case3 char rest unpaired induction =>
      rw [translateNewlines_cons]
      · simp only [List.length_cons]
        omega
      · intro tail same
        cases same
        exact unpaired tail rfl rfl

/-- A pair is shorter than before. -/
theorem length_translateNewlines_lt {text : List Char}
    (paired : Paired text) :
    (translateNewlines text).length < text.length := by
  induction text using translateNewlines.induct with
  | case1 => exact absurd (List.eq_nil_of_infix_nil paired) (by nofun)
  | case2 rest induction =>
      have shorter := length_translateNewlines_le rest
      rw [translateNewlines]
      simp only [List.length_cons]
      omega
  | case3 char rest unpaired induction =>
      have notPair : ∀ tail, char :: rest ≠ '\r' :: '\n' :: tail := by
        intro tail same
        cases same
        exact unpaired tail rfl rfl
      rw [translateNewlines_cons notPair, List.length_cons,
        List.length_cons]
      rcases List.infix_cons_iff.mp paired with front | later
      · obtain ⟨tail, same⟩ := front
        exact absurd same.symm (notPair tail)
      · exact Nat.succ_lt_succ (induction later)

theorem translateNewlines_eq_nil {text : List Char} :
    translateNewlines text = [] ↔ text = [] := by
  rw [translateNewlines.eq_def]
  split <;> simp

/-- A test that both newlines pass tells no difference. -/
theorem all_translateNewlines {test : Char → Bool} (text : List Char)
    (onReturn : test '\r' = true) (onFeed : test '\n' = true) :
    (translateNewlines text).all test = text.all test := by
  have feed (char : Char) : test (asLineFeed char) = test char := by
    rw [asLineFeed]
    split
    · next isReturn => rw [isReturn, onReturn, onFeed]
    · rfl
  induction text using translateNewlines.induct with
  | case1 => rfl
  | case2 rest induction =>
      rw [translateNewlines, List.all_cons, List.all_cons, List.all_cons,
        induction, onReturn, Bool.true_and]
  | case3 char rest unpaired induction =>
      rw [translateNewlines_cons, List.all_cons, List.all_cons, induction,
        feed]
      intro tail same
      cases same
      exact unpaired tail rfl rfl

/-! ## The last line -/

theorem splitLinesFrom_line {line : List Char}
    (noBoundary : ∀ char ∈ line, isLineBoundary char = false)
    (front : List Char) :
    splitLinesFrom front line =
      if front.reverse ++ line = [] then [] else [front.reverse ++ line] := by
  induction line generalizing front with
  | nil => simp [splitLinesFrom]
  | cons char line induction =>
      rw [List.forall_mem_cons] at noBoundary
      have noReturn : char ≠ '\r' := by
        rintro rfl
        exact absurd noBoundary.1 (by decide)
      rw [splitLinesFrom_cons noReturn, if_neg (by simp [noBoundary.1]),
        induction noBoundary.2, List.reverse_cons, List.append_assoc,
        List.singleton_append]

/-- What follows the last line feed is the last line. -/
theorem splitLines_last {line : List Char} (notEmpty : line ≠ [])
    (noBoundary : ∀ char ∈ line, isLineBoundary char = false)
    (front : List Char) :
    ∃ lines, splitLines (front ++ '\n' :: line) = lines ++ [line] := by
  suffices general :
      ∀ begun, ∃ lines,
        splitLinesFrom begun (front ++ '\n' :: line) = lines ++ [line] from
    general []
  have lastLine : splitLinesFrom [] line = [line] := by
    rw [splitLinesFrom_line noBoundary, if_neg (by simpa using notEmpty)]
    rfl
  intro begun
  induction front using translateNewlines.induct generalizing begun with
  | case1 =>
      refine ⟨[begun.reverse], ?_⟩
      rw [List.nil_append, splitLinesFrom_cons (by decide),
        if_pos (by decide), lastLine]
      rfl
  | case2 rest induction =>
      obtain ⟨lines, same⟩ := induction []
      refine ⟨begun.reverse :: lines, ?_⟩
      rw [List.cons_append, List.cons_append, splitLinesFrom, same]
      rfl
  | case3 char rest unpaired induction =>
      rw [List.cons_append]
      by_cases isReturn : char = '\r'
      · subst isReturn
        rw [splitLinesFrom_return]
        cases rest with
        | nil =>
            refine ⟨[begun.reverse], ?_⟩
            rw [List.nil_append, List.head?_cons, if_pos rfl, List.tail_cons,
              lastLine]
            rfl
        | cons first rest =>
            obtain ⟨lines, same⟩ := induction []
            refine ⟨begun.reverse :: lines, ?_⟩
            rw [List.cons_append, List.head?_cons, if_neg, ← List.cons_append,
              same]
            · rfl
            · intro feeds
              cases Option.some.inj feeds
              exact unpaired rest rfl rfl
      · rw [splitLinesFrom_cons isReturn]
        split
        · obtain ⟨lines, same⟩ := induction []
          exact ⟨begun.reverse :: lines, by rw [same]; rfl⟩
        · exact induction _

/-! ## Lines of a file -/

/-- The lines up to line feeds, the first of which has been read in part. -/
def feedLinesFrom (line : List Char) : List Char → List (List Char)
  | [] => if line = [] then [] else [line.reverse]
  | char :: rest =>
      if char = '\n' then line.reverse :: feedLinesFrom [] rest
      else feedLinesFrom (char :: line) rest

/-- The lines of a file in text mode, without their ends. -/
def fileLines (text : List Char) : List (List Char) :=
  feedLinesFrom [] (translateNewlines text)

theorem translateNewlines_plain_append {front : List Char}
    (noReturn : '\r' ∉ front) (rest : List Char) :
    translateNewlines (front ++ rest) = front ++ translateNewlines rest := by
  induction front with
  | nil => rfl
  | cons char front induction =>
      rw [List.mem_cons, not_or] at noReturn
      rw [List.cons_append, translateNewlines_cons, induction noReturn.2,
        asLineFeed, if_neg (Ne.symm noReturn.1), List.cons_append]
      intro tail same
      exact noReturn.1 (List.cons.inj same).1.symm

theorem translateNewlines_append {line : List Char}
    (noReturn : '\r' ∉ line) (rest : List Char) :
    translateNewlines (line ++ '\n' :: rest) =
      line ++ '\n' :: translateNewlines rest := by
  rw [translateNewlines_plain_append noReturn, translateNewlines_cons (by nofun)]
  rfl

theorem return_not_mem_translateNewlines (text : List Char) :
    '\r' ∉ translateNewlines text := by
  induction text using translateNewlines.induct with
  | case1 => nofun
  | case2 rest induction =>
      rw [translateNewlines, List.mem_cons, not_or]
      exact ⟨by decide, induction⟩
  | case3 char rest unpaired induction =>
      rw [translateNewlines_cons, List.mem_cons, not_or, asLineFeed]
      · refine ⟨?_, induction⟩
        split
        · decide
        · next notReturn => exact Ne.symm notReturn
      · intro tail same
        cases same
        exact unpaired tail rfl rfl

theorem feedLinesFrom_append {line : List Char} (noFeed : '\n' ∉ line)
    (front rest : List Char) :
    feedLinesFrom front (line ++ '\n' :: rest) =
      (front.reverse ++ line) :: feedLinesFrom [] rest := by
  induction line generalizing front with
  | nil =>
      rw [List.nil_append, feedLinesFrom, if_pos rfl, List.append_nil]
  | cons char line induction =>
      rw [List.mem_cons, not_or] at noFeed
      rw [List.cons_append, feedLinesFrom, if_neg (Ne.symm noFeed.1),
        induction noFeed.2, List.reverse_cons, List.append_assoc,
        List.singleton_append]

/-- The lines with their ends are the text, up to the last end. -/
theorem flatMap_feedLinesFrom (front text : List Char) :
    ∃ tail, (tail = [] ∨ tail = ['\n']) ∧
      (feedLinesFrom front text).flatMap (· ++ ['\n']) =
        front.reverse ++ (text ++ tail) := by
  induction text generalizing front with
  | nil =>
      rw [feedLinesFrom]
      split
      · next isEmpty =>
          subst isEmpty
          exact ⟨[], Or.inl rfl, rfl⟩
      · exact ⟨['\n'], Or.inr rfl, by simp⟩
  | cons char rest induction =>
      rw [feedLinesFrom]
      split
      · next isFeed =>
          obtain ⟨tail, isTail, same⟩ := induction []
          refine ⟨tail, isTail, ?_⟩
          rw [List.flatMap_cons, same, isFeed]
          simp
      · obtain ⟨tail, isTail, same⟩ := induction (char :: front)
        refine ⟨tail, isTail, ?_⟩
        rw [same]
        simp

/-- The end of the last line makes no difference. -/
theorem feedLinesFrom_concat {text front : List Char}
    (notNil : front ≠ [] ∨ text ≠ []) (notFeed : text.getLast? ≠ some '\n') :
    feedLinesFrom front (text ++ ['\n']) = feedLinesFrom front text := by
  induction text generalizing front with
  | nil =>
      have begun : front ≠ [] := notNil.resolve_right (· rfl)
      simp [feedLinesFrom, begun]
  | cons char rest induction =>
      rw [List.cons_append, feedLinesFrom, feedLinesFrom]
      split
      · next isFeed =>
          have more : rest ≠ [] := by
            rintro rfl
            exact notFeed (by rw [isFeed]; rfl)
          rw [induction (Or.inr more)]
          rwa [List.getLast?_cons_of_ne_nil more] at notFeed
      · refine induction (Or.inl (List.cons_ne_nil _ _)) fun isLast => notFeed ?_
        rw [List.getLast?_cons, isLast]
        rfl

/-- A line with a line feed behind it is the first line. -/
theorem fileLines_append {line : List Char} (noReturn : '\r' ∉ line)
    (noFeed : '\n' ∉ line) (rest : List Char) :
    fileLines (line ++ '\n' :: rest) = line :: fileLines rest := by
  rw [fileLines, translateNewlines_append noReturn,
    feedLinesFrom_append noFeed]
  rfl

/-- Lines that are put together with a break between them are found again. -/
theorem splitLines_intercalate {lines : List (List Char)}
    (nonempty : ∀ line ∈ lines, line ≠ [])
    (noBoundary : ∀ line ∈ lines, ∀ char ∈ line, isLineBoundary char = false) :
    splitLines (['\n'].intercalate lines) = lines := by
  induction lines with
  | nil => rfl
  | cons line lines induction =>
      rw [List.forall_mem_cons] at nonempty noBoundary
      cases lines with
      | nil =>
          rw [List.intercalate_singleton, splitLines,
            splitLinesFrom_line noBoundary.1, List.reverse_nil,
            List.nil_append, if_neg nonempty.1]
      | cons next lines =>
          rw [List.intercalate_cons_cons, List.append_assoc,
            List.singleton_append,
            splitLines_append noBoundary.1 (by decide) (by decide),
            induction nonempty.2 noBoundary.2]

/-- Lines without a carriage return are not changed. -/
theorem translateNewlines_lines {lines : List (List Char)}
    (noReturn : ∀ line ∈ lines, '\r' ∉ line) :
    translateNewlines (lines.flatMap fun line => line ++ ['\n']) =
      lines.flatMap fun line => line ++ ['\n'] := by
  induction lines with
  | nil => rfl
  | cons line lines induction =>
      rw [List.forall_mem_cons] at noReturn
      rw [List.flatMap_cons, List.append_assoc, List.singleton_append,
        translateNewlines_append noReturn.1, induction noReturn.2]

end TextLines
