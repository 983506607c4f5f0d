import AgentSchedBench.Library.Patterns

/-!
# Substitutions

A substitution cuts a text into characters at which the pattern has no match,
which are kept, and into matches, for each of which a replacement is written.
A word that has no character of the replacement is in the new text only where
it was in the old one.
-/

namespace Patterns

/-- A piece of a text. -/
inductive Piece where
  | kept (char : Char)
  | matched (text : List Char)
deriving DecidableEq, Repr

namespace Piece

/-- What the piece is of the text. -/
def source : Piece → List Char
  | kept char => [char]
  | matched text => text

/-- What is written for the piece. -/
def written (replacement : List Char) : Piece → List Char
  | kept char => [char]
  | matched _ => replacement

@[simp]
theorem source_kept (char : Char) : (kept char).source = [char] := rfl

@[simp]
theorem source_matched (text : List Char) : (matched text).source = text := rfl

@[simp]
theorem written_kept (replacement : List Char) (char : Char) :
    (kept char).written replacement = [char] := rfl

@[simp]
theorem written_matched (replacement text : List Char) :
    (matched text).written replacement = replacement := rfl

end Piece

namespace Pattern

/--
The pieces of the rest of a text, of which so many characters belong to the
last match.  Behind a match of nothing a character is kept.
-/
def cutFrom (pattern : Pattern) : Nat → Option Char → List Char → List Piece
  | 0, before, [] =>
      ((pattern.first before []).map fun part => Piece.matched part.text).toList
  | _ + 1, _, [] => []
  | 0, before, char :: rest =>
      match pattern.first before (char :: rest) with
      | none => .kept char :: cutFrom pattern 0 (some char) rest
      | some part =>
          if part.text = [] then
            .matched [] :: .kept char :: cutFrom pattern 0 (some char) rest
          else
            .matched part.text ::
              cutFrom pattern (part.text.length - 1) (some char) rest
  | skip + 1, _, char :: rest => cutFrom pattern skip (some char) rest

/-- The text with the replacement for each match. -/
def sub (pattern : Pattern) (replacement text : List Char) : List Char :=
  (pattern.cutFrom 0 none text).flatMap (Piece.written replacement)

/-- No match is of nothing. -/
def NeverEmpty (pattern : Pattern) : Prop :=
  ∀ before rest, ∀ part ∈ pattern.found before rest, part.text ≠ []

section Cut

variable {pattern : Pattern} {before : Option Char} {rest : List Char}

theorem cutFrom_cons (char : Char) :
    pattern.cutFrom 0 before (char :: rest) =
      match pattern.first before (char :: rest) with
      | none => .kept char :: pattern.cutFrom 0 (some char) rest
      | some part =>
          if part.text = [] then
            .matched [] :: .kept char :: pattern.cutFrom 0 (some char) rest
          else
            .matched part.text ::
              pattern.cutFrom (part.text.length - 1) (some char) rest :=
  rfl

/-- A text that is not searched with success is kept. -/
theorem cutFrom_of_search (none : pattern.searchFrom before rest = none) :
    pattern.cutFrom 0 before rest = rest.map Piece.kept := by
  induction rest generalizing before with
  | nil =>
      rw [searchFrom] at none
      rw [cutFrom, none]
      rfl
  | cons char rest induction =>
      rw [searchFrom, Option.or_eq_none_iff] at none
      rw [cutFrom_cons, none.1, List.map_cons]
      exact congrArg _ (induction none.2)

theorem sub_eq_self {text : List Char} (replacement : List Char)
    (none : pattern.search text = none) : pattern.sub replacement text = text := by
  rw [sub, cutFrom_of_search none, List.flatMap_map]
  exact List.flatMap_singleton' text

/-- The characters of the last match are passed. -/
theorem cutFrom_length (front : List Char) :
    pattern.cutFrom front.length before (front ++ rest) =
      pattern.cutFrom 0 (front.getLast?.or before) rest := by
  induction front generalizing before with
  | nil => rfl
  | cons char front induction =>
      rw [getLast?_cons_or, ← induction]
      rfl

/-- The pieces of a text, none of which is a match of nothing. -/
inductive Cuts (pattern : Pattern) : Option Char → List Char → List Piece → Prop
  | nil {before : Option Char} : Cuts pattern before [] []
  | kept {before : Option Char} {char : Char} {rest : List Char}
      {pieces : List Piece} (noMatch : pattern.found before (char :: rest) = [])
      (later : Cuts pattern (some char) rest pieces) :
      Cuts pattern before (char :: rest) (.kept char :: pieces)
  | matched {before : Option Char} {part : Match} {rest : List Char}
      {pieces : List Piece} (nonempty : part.text ≠ [])
      (isFirst : pattern.first before (part.text ++ rest) = some part)
      (later : Cuts pattern (part.text.getLast?.or before) rest pieces) :
      Cuts pattern before (part.text ++ rest) (.matched part.text :: pieces)

theorem first_mem {part : Match} (isFirst : pattern.first before rest = some part) :
    part ∈ pattern.found before rest :=
  List.mem_of_mem_head? isFirst

theorem cuts_cutFrom (never : pattern.NeverEmpty) (before : Option Char)
    (rest : List Char) : Cuts pattern before rest (pattern.cutFrom 0 before rest) := by
  induction isLength : rest.length using Nat.strong_induction_on
    generalizing before rest with
  | _ length induction =>
  cases rest with
  | nil =>
      have none : pattern.first before [] = none := by
        by_contra found
        obtain ⟨part, isFirst⟩ := Option.ne_none_iff_exists'.mp found
        have isFound := first_mem isFirst
        exact never _ _ _ isFound (List.prefix_nil.mp (found_isPrefix isFound))
      rw [cutFrom, none]
      exact .nil
  | cons char rest =>
      rw [List.length_cons] at isLength
      rw [cutFrom_cons]
      cases isFirst : pattern.first before (char :: rest) with
      | none =>
          exact .kept (first_eq_none.mp isFirst)
            (induction _ (by omega) _ _ rfl)
      | some part =>
          have isFound := first_mem isFirst
          have nonempty := never _ _ _ isFound
          obtain ⟨back, same⟩ := found_isPrefix isFound
          dsimp only
          rw [if_neg nonempty]
          obtain ⟨first, others, isText⟩ := List.exists_cons_of_ne_nil nonempty
          rw [isText, List.cons_append] at same
          obtain ⟨rfl, rfl⟩ := List.cons.inj same
          have passed : pattern.cutFrom (part.text.length - 1) (some first)
              (others ++ back) =
              pattern.cutFrom 0 (part.text.getLast?.or before) back := by
            rw [isText, List.length_cons, Nat.add_sub_cancel, cutFrom_length,
              getLast?_cons_or]
          have isSource : first :: (others ++ back) = part.text ++ back := by
            rw [isText]
            rfl
          rw [List.length_append] at isLength
          rw [passed, isSource]
          rw [isSource] at isFirst
          exact .matched nonempty isFirst (induction _ (by omega) _ _ rfl)

end Cut

/-! ## Pieces -/

section Pieces

variable {pattern : Pattern} {before : Option Char} {text : List Char}
  {pieces : List Piece} {replacement : List Char}

namespace Cuts

theorem source (cuts : Cuts pattern before text pieces) :
    pieces.flatMap Piece.source = text := by
  induction cuts with
  | nil => rfl
  | kept noMatch later induction => rw [List.flatMap_cons, induction]; rfl
  | matched nonempty isFirst later induction =>
      rw [List.flatMap_cons, induction]
      rfl

/-- Where a piece stands, the pieces behind it cut the rest of the text. -/
theorem at_append {front back : List Piece}
    (cuts : Cuts pattern before text (front ++ back)) :
    ∃ before, Cuts pattern before (back.flatMap Piece.source) back := by
  induction front generalizing before text with
  | nil =>
      rw [List.nil_append] at cuts
      exact ⟨before, cuts.source.symm ▸ cuts⟩
  | cons piece front induction =>
      cases cuts with
      | kept noMatch later => exact induction later
      | matched nonempty isFirst later => exact induction later

/-- A character is kept where nothing matches. -/
theorem found_of_kept {front back : List Piece} {char : Char}
    (cuts : Cuts pattern before text (front ++ .kept char :: back)) :
    ∃ before,
      pattern.found before (char :: back.flatMap Piece.source) = [] := by
  obtain ⟨behind, cuts⟩ := cuts.at_append
  generalize isRest :
    (Piece.kept char :: back).flatMap Piece.source = rest at cuts
  cases cuts with
  | kept noMatch later =>
      rw [later.source]
      exact ⟨behind, noMatch⟩

/-- A piece that matched is a match. -/
theorem found_of_matched {front back : List Piece} {matched : List Char}
    (cuts : Cuts pattern before text (front ++ .matched matched :: back)) :
    matched ≠ [] ∧
      ∃ before, ∃ part ∈ pattern.found before
          (matched ++ back.flatMap Piece.source), part.text = matched := by
  obtain ⟨behind, cuts⟩ := cuts.at_append
  generalize isRest :
    (Piece.matched matched :: back).flatMap Piece.source = rest at cuts
  cases cuts with
  | matched nonempty isFirst later =>
      rw [later.source]
      exact ⟨nonempty, behind, _, first_mem isFirst, rfl⟩

end Cuts

/-- A character that is not of the replacement has been kept. -/
theorem exists_kept {char : Char} (notWritten : char ∉ replacement)
    {front back : List Char}
    (isText :
      pieces.flatMap (Piece.written replacement) = front ++ char :: back) :
    ∃ earlier later, pieces = earlier ++ .kept char :: later ∧
      earlier.flatMap (Piece.written replacement) = front ∧
        later.flatMap (Piece.written replacement) = back := by
  induction pieces generalizing front with
  | nil => cases front <;> cases isText
  | cons piece pieces induction =>
      rw [List.flatMap_cons] at isText
      cases piece with
      | kept other =>
          cases front with
          | nil =>
              obtain ⟨rfl, rfl⟩ := List.cons.inj isText
              exact ⟨[], pieces, rfl, rfl, rfl⟩
          | cons first front =>
              obtain ⟨rfl, isRest⟩ := List.cons.inj isText
              obtain ⟨earlier, later, rfl, isFront, isBack⟩ := induction isRest
              exact ⟨.kept other :: earlier, later, rfl,
                by rw [List.flatMap_cons, isFront]; rfl, isBack⟩
      | matched matched =>
          rw [Piece.written_matched] at isText
          obtain ⟨more, rfl, isRest⟩ :
              ∃ more, front = replacement ++ more ∧
                pieces.flatMap (Piece.written replacement) =
                  more ++ char :: back := by
            rcases List.append_eq_append_iff.mp isText with
              ⟨more, isFront, isRest⟩ | ⟨more, isWritten, isRest⟩
            · exact ⟨more, isFront, isRest⟩
            · cases more with
              | nil => exact ⟨[], by simpa using isWritten.symm, isRest.symm⟩
              | cons first more =>
                  obtain ⟨rfl, -⟩ := List.cons.inj isRest
                  refine absurd ?_ notWritten
                  rw [isWritten]
                  exact List.mem_append_right _ List.mem_cons_self
          obtain ⟨earlier, later, rfl, isFront, isBack⟩ := induction isRest
          exact ⟨.matched matched :: earlier, later, rfl,
            by rw [List.flatMap_cons, isFront]; rfl, isBack⟩

/-- A front without a character of the replacement has been kept. -/
theorem exists_front {word back : List Char} (nonempty : replacement ≠ [])
    (notWritten : ∀ char ∈ word, char ∉ replacement)
    (isText :
      pieces.flatMap (Piece.written replacement) = word ++ back) :
    ∃ later, pieces = word.map .kept ++ later ∧
      later.flatMap (Piece.written replacement) = back := by
  induction word generalizing pieces with
  | nil => exact ⟨pieces, rfl, isText⟩
  | cons char word induction =>
      obtain ⟨charNot, wordNot⟩ := List.forall_mem_cons.mp notWritten
      have isText : pieces.flatMap (Piece.written replacement) =
          [] ++ char :: (word ++ back) := isText
      obtain ⟨earlier, later, rfl, isFront, isBack⟩ := exists_kept charNot isText
      obtain ⟨rest, rfl, isRest⟩ := induction wordNot isBack
      cases earlier with
      | nil => exact ⟨rest, rfl, isRest⟩
      | cons piece earlier =>
          rw [List.flatMap_cons] at isFront
          cases piece with
          | kept other => cases isFront
          | matched matched =>
              exact absurd (List.append_eq_nil_iff.mp isFront).1 nonempty

/-- A word without a character of the replacement has been kept. -/
theorem exists_word {first : Char} {word front back : List Char}
    (nonempty : replacement ≠ [])
    (notWritten : ∀ char ∈ first :: word, char ∉ replacement)
    (isText :
      pieces.flatMap (Piece.written replacement) =
        front ++ (first :: word ++ back)) :
    ∃ earlier later, pieces = earlier ++ (first :: word).map .kept ++ later ∧
      later.flatMap (Piece.written replacement) = back := by
  obtain ⟨firstNot, wordNot⟩ := List.forall_mem_cons.mp notWritten
  obtain ⟨earlier, rest, rfl, -, isRest⟩ := exists_kept firstNot isText
  obtain ⟨later, rfl, isBack⟩ := exists_front nonempty wordNot isRest
  exact ⟨earlier, later, by simp, isBack⟩

end Pieces

/-! ## The new text -/

section Sub

variable {pattern : Pattern} {replacement text : List Char}

theorem flatMap_source_kept (word : List Char) :
    (word.map Piece.kept).flatMap Piece.source = word := by
  rw [List.flatMap_map]
  exact List.flatMap_singleton' word

/-- No character is left at which the pattern has a match. -/
theorem not_mem_sub {test : Char → Bool} (never : pattern.NeverEmpty)
    (isFound : ∀ before char rest, test char = true →
      pattern.found before (char :: rest) ≠ [])
    (notWritten : ∀ char ∈ replacement, test char = false) :
    ∀ char ∈ pattern.sub replacement text, test char = false := by
  intro char member
  by_cases isWritten : char ∈ replacement
  · exact notWritten char isWritten
  · obtain ⟨front, back, isText⟩ := List.append_of_mem member
    obtain ⟨earlier, later, isCut, -⟩ := exists_kept isWritten isText
    have cuts := cuts_cutFrom never none text
    rw [isCut] at cuts
    obtain ⟨before, none⟩ := cuts.found_of_kept
    rw [← Bool.not_eq_true]
    exact fun passes => isFound before char _ passes none

/-- The word is in the text only in front of a character that stops it, or at
the end. -/
def Stopped (word : List Char) (stops : Char → Bool) (text : List Char) : Prop :=
  ∀ front char back, text = front ++ (word ++ char :: back) → stops char = true

variable {first : Char} {word : List Char} {stops : Char → Bool}

/-- A word in the new text has been kept, and it was in front of the same
character or of a match. -/
theorem exists_stop (never : pattern.NeverEmpty) (nonempty : replacement ≠ [])
    (notWritten : ∀ char ∈ first :: word, char ∉ replacement)
    {front back : List Char} {char : Char}
    (isText :
      pattern.sub replacement text = front ++ (first :: word ++ char :: back)) :
    ∃ front next rest, text = front ++ (first :: word ++ next :: rest) ∧
      (∃ before, pattern.found before (first :: word ++ next :: rest) = []) ∧
        (next = char ∨
          ∃ before rest, ∃ part ∈ pattern.found before rest,
            part.text.head? = some next) := by
  obtain ⟨earlier, later, isCut, isBack⟩ :=
    exists_word nonempty notWritten isText
  have cuts := cuts_cutFrom never none text
  rw [isCut] at cuts
  have isSource := cuts.source
  rw [List.flatMap_append, List.flatMap_append, flatMap_source_kept,
    List.append_assoc] at isSource
  rw [List.append_assoc, List.map_cons, List.cons_append] at cuts
  obtain ⟨before, none⟩ := cuts.found_of_kept
  rw [List.flatMap_append, flatMap_source_kept, ← List.cons_append] at none
  cases later with
  | nil => cases isBack
  | cons piece later =>
      rw [List.flatMap_cons] at isSource isBack none
      cases piece with
      | kept other =>
          obtain ⟨rfl, -⟩ := List.cons.inj isBack
          exact ⟨_, other, _, isSource.symm, ⟨before, none⟩, Or.inl rfl⟩
      | matched matched =>
          rw [← List.cons_append, ← List.map_cons, ← List.append_assoc] at cuts
          obtain ⟨notNil, behind, part, isFound, rfl⟩ := cuts.found_of_matched
          obtain ⟨next, others, isMatched⟩ := List.exists_cons_of_ne_nil notNil
          rw [Piece.source_matched, isMatched] at isSource none
          exact ⟨_, next, _, isSource.symm, ⟨before, none⟩,
            Or.inr ⟨behind, _, part, isFound, by rw [isMatched]; rfl⟩⟩

/-- No match begins with a character that stops the word. -/
def BeginsUnstopped (pattern : Pattern) (stops : Char → Bool) : Prop :=
  ∀ before rest, ∀ part ∈ pattern.found before rest,
    ∀ char ∈ part.text.head?, stops char = false

/-- What is written in front of a word does not let it go on. -/
theorem Stopped.sub (stopped : Stopped (first :: word) stops text)
    (never : pattern.NeverEmpty) (begins : pattern.BeginsUnstopped stops)
    (nonempty : replacement ≠ [])
    (notWritten : ∀ char ∈ first :: word, char ∉ replacement) :
    Stopped (first :: word) stops (pattern.sub replacement text) := by
  intro front char back isText
  obtain ⟨_, next, rest, same, -, rfl | ⟨_, _, part, isFound, isHead⟩⟩ :=
    exists_stop never nonempty notWritten isText
  · exact stopped _ _ _ same
  · have stops := stopped _ _ _ same
    rw [begins _ _ part isFound next isHead] at stops
    cases stops

/-- A pattern that takes a word with what does not stop it leaves none. -/
theorem stopped_sub (never : pattern.NeverEmpty)
    (begins : pattern.BeginsUnstopped stops)
    (isFound : ∀ before char rest, stops char = false →
      pattern.found before (first :: word ++ char :: rest) ≠ [])
    (nonempty : replacement ≠ [])
    (notWritten : ∀ char ∈ first :: word, char ∉ replacement) :
    Stopped (first :: word) stops (pattern.sub replacement text) := by
  intro front char back isText
  obtain ⟨_, next, rest, -, ⟨before, none⟩, rfl | ⟨_, _, part, isPart, isHead⟩⟩ :=
    exists_stop never nonempty notWritten isText
  · rw [← Bool.not_eq_false]
    exact fun goesOn => isFound before _ rest goesOn none
  · exact absurd none
      (isFound before next rest (begins _ _ part isPart next isHead))

end Sub

/-! ## Patterns in order -/

/-- The patterns, the one behind the other. -/
def inOrder : List Pattern → Pattern
  | [] => .letters []
  | pattern :: patterns => .seq pattern (inOrder patterns)

theorem found_inOrder_one {pattern : Pattern} {before : Option Char}
    {rest : List Char} :
    (inOrder [pattern]).found before rest = pattern.found before rest := by
  have same (part : Match) : part.followedBy (.plain []) = part := by
    rw [Match.followedBy, Match.plain_text, List.append_nil]
    rfl
  rw [inOrder, inOrder, found_seq]
  simp only [found_letters, List.nil_prefix, if_true, List.map_cons,
    List.map_nil, same]
  exact List.flatMap_singleton' _

/-- What may be absent. -/
def optional (pattern : Pattern) : Pattern := .either pattern (.letters [])

/-- Each match has a character that passes the test. -/
def Contains (pattern : Pattern) (test : Char → Bool) : Prop :=
  ∀ before rest, ∀ part ∈ pattern.found before rest,
    ∃ char ∈ part.text, test char = true

section Contains

variable {pattern : Pattern} {test : Char → Bool}

theorem Contains.neverEmpty (contains : pattern.Contains test) :
    pattern.NeverEmpty := by
  intro before rest part isFound isNil
  obtain ⟨char, member, -⟩ := contains before rest part isFound
  rw [isNil] at member
  cases member

theorem contains_letters {word : List Char} {char : Char} (member : char ∈ word)
    (passes : test char = true) : (letters word).Contains test := by
  intro before rest part isFound
  obtain ⟨rfl, -⟩ := mem_found_letters.mp isFound
  exact ⟨char, member, passes⟩

theorem contains_one {inner : Char → Bool}
    (passes : ∀ char, inner char = true → test char = true) :
    (one inner).Contains test := by
  intro before rest part isFound
  obtain ⟨char, tail, rfl, isInner, rfl⟩ := mem_found_one.mp isFound
  exact ⟨char, List.mem_singleton_self char, passes char isInner⟩

theorem contains_many {least : Nat} {most : Option Nat} (positive : 0 < least) :
    (many test least most).Contains test := by
  intro before rest part isFound
  obtain ⟨front, back, rfl, rfl, passes, atLeast, -⟩ := mem_found_many.mp isFound
  obtain ⟨char, member⟩ := List.exists_mem_of_length_pos
    (positive.trans_le atLeast)
  exact ⟨char, member, passes char member⟩

theorem contains_either {other : Pattern} (contains : pattern.Contains test)
    (otherContains : other.Contains test) :
    (either pattern other).Contains test := by
  intro before rest part isFound
  rcases mem_found_either.mp isFound with isFound | isFound
  · exact contains before rest part isFound
  · exact otherContains before rest part isFound

theorem contains_inOrder {patterns : List Pattern} (member : pattern ∈ patterns)
    (contains : pattern.Contains test) : (inOrder patterns).Contains test := by
  induction patterns with
  | nil => cases member
  | cons next patterns induction =>
      intro before rest part isFound
      obtain ⟨start, back, isStart, rfl, stop, isStop, rfl⟩ :=
        mem_found_seq.mp isFound
      rw [Match.followedBy_text]
      rcases List.mem_cons.mp member with rfl | member
      · obtain ⟨char, inStart, passes⟩ := contains _ _ start isStart
        exact ⟨char, List.mem_append_left _ inStart, passes⟩
      · obtain ⟨char, inStop, passes⟩ := induction member _ _ stop isStop
        exact ⟨char, List.mem_append_right _ inStop, passes⟩

/-- A text without a character that each match has is searched in vain. -/
theorem search_of_contains {text : List Char} (contains : pattern.Contains test)
    (fails : ∀ char ∈ text, test char = false) : pattern.search text = none := by
  rw [search, searchFrom_eq_none]
  rintro front rest rfl
  rw [List.eq_nil_iff_forall_not_mem]
  intro part isFound
  obtain ⟨char, member, passes⟩ := contains _ _ part isFound
  have inText := List.mem_append_right front
    ((found_isPrefix isFound).subset member)
  rw [fails char inText] at passes
  cases passes

end Contains

end Pattern

end Patterns
