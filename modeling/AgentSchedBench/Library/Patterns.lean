import Mathlib.Data.List.Infix
import Mathlib.Data.List.TakeWhile

/-!
# Patterns of a text

A regular expression whose repeats are of single characters.  A place of a
text has a list of matches, in the order in which a backtracking matcher tries
them, and the first of them counts.  A search takes the first place that has a
match, and a substitution goes on behind each match.
-/

namespace Patterns

inductive Pattern where
  | letters (word : List Char)
  | one (test : Char → Bool)
  /-- One of the two neighbours belongs to a word. -/
  | boundary (isWord : Char → Bool)
  /-- As many characters as there are, up to a bound. -/
  | many (test : Char → Bool) (least : Nat) (most : Option Nat)
  /-- As few characters as the rest of the pattern allows. -/
  | fewest (test : Char → Bool)
  | seq (first next : Pattern)
  | either (first other : Pattern)
  | group (inner : Pattern)

/-- The text that was matched, and the last group in it. -/
structure Match where
  text : List Char
  inGroup : Option (List Char)
deriving DecidableEq, Repr

namespace Match

def plain (text : List Char) : Match := ⟨text, none⟩

/-- The one match behind the other. -/
def followedBy (first next : Match) : Match :=
  ⟨first.text ++ next.text, next.inGroup.or first.inGroup⟩

@[simp]
theorem plain_text (text : List Char) : (plain text).text = text := rfl

@[simp]
theorem followedBy_text (first next : Match) :
    (first.followedBy next).text = first.text ++ next.text := rfl

end Match

namespace Pattern

/-- How many characters a greedy repeat takes, in the order of its tries. -/
def greedyLengths (least : Nat) (most : Option Nat) (run : Nat) : List Nat :=
  (List.range (run + 1)).reverse.filter fun length =>
    decide (least ≤ length) && most.all (length ≤ ·)

/-- The matches at a place, which is behind the character `before`. -/
def found : Pattern → Option Char → List Char → List Match
  | letters word, _, rest =>
      if word <+: rest then [.plain word] else []
  | one test, _, rest =>
      (rest.head?.filter test).toList.map fun char => .plain [char]
  | boundary isWord, before, rest =>
      if before.any isWord ≠ rest.head?.any isWord then [.plain []] else []
  | many test least most, _, rest =>
      (greedyLengths least most (rest.takeWhile test).length).map
        fun length => .plain (rest.take length)
  | fewest test, _, rest =>
      (List.range ((rest.takeWhile test).length + 1)).map
        fun length => .plain (rest.take length)
  | seq first next, before, rest =>
      (first.found before rest).flatMap fun part =>
        (next.found (part.text.getLast?.or before)
          (rest.drop part.text.length)).map part.followedBy
  | either first other, before, rest =>
      first.found before rest ++ other.found before rest
  | group inner, before, rest =>
      (inner.found before rest).map fun part => ⟨part.text, some part.text⟩

section Found

variable (before : Option Char) (rest : List Char)

theorem found_letters (word : List Char) :
    (letters word).found before rest =
      if word <+: rest then [.plain word] else [] := rfl

theorem found_one (test : Char → Bool) :
    (one test).found before rest =
      (rest.head?.filter test).toList.map fun char => .plain [char] := rfl

theorem found_boundary (isWord : Char → Bool) :
    (boundary isWord).found before rest =
      if before.any isWord ≠ rest.head?.any isWord then [.plain []] else [] := rfl

theorem found_many (test : Char → Bool) (least : Nat) (most : Option Nat) :
    (many test least most).found before rest =
      (greedyLengths least most (rest.takeWhile test).length).map
        fun length => .plain (rest.take length) := rfl

theorem found_fewest (test : Char → Bool) :
    (fewest test).found before rest =
      (List.range ((rest.takeWhile test).length + 1)).map
        fun length => .plain (rest.take length) := rfl

theorem found_seq (first next : Pattern) :
    (seq first next).found before rest =
      (first.found before rest).flatMap fun part =>
        (next.found (part.text.getLast?.or before)
          (rest.drop part.text.length)).map part.followedBy := rfl

theorem found_either (first other : Pattern) :
    (either first other).found before rest =
      first.found before rest ++ other.found before rest := rfl

theorem found_group (inner : Pattern) :
    (group inner).found before rest =
      (inner.found before rest).map fun part => ⟨part.text, some part.text⟩ := rfl

end Found

/-- The match at a place. -/
def first (pattern : Pattern) (before : Option Char) (rest : List Char) :
    Option Match :=
  (pattern.found before rest).head?

variable {pattern : Pattern} {before : Option Char} {rest : List Char}

/-! ## Matches -/

theorem mem_greedyLengths {least length run : Nat} {most : Option Nat} :
    length ∈ greedyLengths least most run ↔
      length ≤ run ∧ least ≤ length ∧ ∀ bound ∈ most, length ≤ bound := by
  rw [greedyLengths, List.mem_filter, List.mem_reverse, List.mem_range,
    Nat.lt_succ_iff, Bool.and_eq_true, decide_eq_true_iff]
  cases most <;> simp

theorem mem_found_letters {word : List Char} {part : Match} :
    part ∈ (letters word).found before rest ↔
      part = .plain word ∧ word <+: rest := by
  rw [found_letters]
  split <;> simp_all

theorem mem_found_one {test : Char → Bool} {part : Match} :
    part ∈ (one test).found before rest ↔
      ∃ char tail, rest = char :: tail ∧ test char = true ∧
        part = .plain [char] := by
  rw [found_one]
  cases rest with
  | nil => simp
  | cons char tail =>
      rw [List.head?_cons, Option.filter_some]
      by_cases passes : test char = true
      · simp [passes]
      · simp [passes]

theorem mem_found_boundary {isWord : Char → Bool} {part : Match} :
    part ∈ (boundary isWord).found before rest ↔
      part = .plain [] ∧ before.any isWord ≠ rest.head?.any isWord := by
  rw [found_boundary]
  split <;> simp_all

theorem take_of_le_takeWhile {test : Char → Bool} {length : Nat}
    (fits : length ≤ (rest.takeWhile test).length) :
    rest.take length = (rest.takeWhile test).take length := by
  conv_lhs => rw [← List.takeWhile_append_dropWhile (p := test) (l := rest)]
  rw [List.take_append_of_le_length fits]

/-- The front of a text passes the test if its length is allowed. -/
theorem le_takeWhile_iff {test : Char → Bool} {front back : List Char} :
    front.length ≤ ((front ++ back).takeWhile test).length ↔
      ∀ char ∈ front, test char = true := by
  constructor
  · intro fits char member
    have same := take_of_le_takeWhile fits
    rw [List.take_left] at same
    rw [same] at member
    exact List.mem_takeWhile_imp (List.mem_of_mem_take member)
  · intro passes
    rw [List.takeWhile_append_of_pos passes, List.length_append]
    exact Nat.le_add_right _ _

theorem exists_split {length : Nat} (fits : length ≤ rest.length) :
    ∃ front back, rest = front ++ back ∧ front.length = length :=
  ⟨rest.take length, rest.drop length, (List.take_append_drop _ _).symm,
    List.length_take_of_le fits⟩

theorem mem_found_many {test : Char → Bool} {least : Nat} {most : Option Nat}
    {part : Match} :
    part ∈ (many test least most).found before rest ↔
      ∃ front back, rest = front ++ back ∧ part = .plain front ∧
        (∀ char ∈ front, test char = true) ∧ least ≤ front.length ∧
          ∀ bound ∈ most, front.length ≤ bound := by
  rw [found_many, List.mem_map]
  constructor
  · rintro ⟨length, isLength, rfl⟩
    obtain ⟨fits, bounds⟩ := mem_greedyLengths.mp isLength
    obtain ⟨front, back, rfl, rfl⟩ :=
      exists_split (fits.trans (List.takeWhile_sublist _).length_le)
    exact ⟨front, back, rfl, by rw [List.take_left],
      le_takeWhile_iff.mp fits, bounds⟩
  · rintro ⟨front, back, rfl, rfl, passes, bounds⟩
    exact ⟨front.length,
      mem_greedyLengths.mpr ⟨le_takeWhile_iff.mpr passes, bounds⟩,
      by rw [List.take_left]⟩

theorem mem_found_fewest {test : Char → Bool} {part : Match} :
    part ∈ (fewest test).found before rest ↔
      ∃ front back, rest = front ++ back ∧ part = .plain front ∧
        ∀ char ∈ front, test char = true := by
  rw [found_fewest, List.mem_map]
  constructor
  · rintro ⟨length, isLength, rfl⟩
    have fits := Nat.lt_succ_iff.mp (List.mem_range.mp isLength)
    obtain ⟨front, back, rfl, rfl⟩ :=
      exists_split (fits.trans (List.takeWhile_sublist _).length_le)
    exact ⟨front, back, rfl, by rw [List.take_left],
      le_takeWhile_iff.mp fits⟩
  · rintro ⟨front, back, rfl, rfl, passes⟩
    exact ⟨front.length,
      List.mem_range.mpr (Nat.lt_succ_iff.mpr (le_takeWhile_iff.mpr passes)),
      by rw [List.take_left]⟩

theorem mem_found_either {one other : Pattern} {part : Match} :
    part ∈ (either one other).found before rest ↔
      part ∈ one.found before rest ∨ part ∈ other.found before rest := by
  rw [found_either, List.mem_append]

theorem mem_found_group {inner : Pattern} {part : Match} :
    part ∈ (group inner).found before rest ↔
      ∃ within ∈ inner.found before rest,
        part = ⟨within.text, some within.text⟩ := by
  rw [found_group, List.mem_map]
  simp only [eq_comm]

/-- A match is what the text goes on with. -/
theorem found_isPrefix {part : Match} (isFound : part ∈ pattern.found before rest) :
    part.text <+: rest := by
  induction pattern generalizing before rest part with
  | letters word =>
      obtain ⟨rfl, isFront⟩ := mem_found_letters.mp isFound
      exact isFront
  | one test =>
      obtain ⟨char, tail, rfl, -, rfl⟩ := mem_found_one.mp isFound
      exact List.prefix_append [char] tail
  | boundary isWord =>
      obtain ⟨rfl, -⟩ := mem_found_boundary.mp isFound
      exact List.nil_prefix
  | many test least most =>
      obtain ⟨front, back, rfl, rfl, -⟩ := mem_found_many.mp isFound
      exact List.prefix_append _ _
  | fewest test =>
      obtain ⟨front, back, rfl, rfl, -⟩ := mem_found_fewest.mp isFound
      exact List.prefix_append _ _
  | seq one next oneInduction nextInduction =>
      rw [found_seq, List.mem_flatMap] at isFound
      obtain ⟨start, isStart, isFound⟩ := isFound
      obtain ⟨stop, isStop, rfl⟩ := List.mem_map.mp isFound
      obtain ⟨tail, same⟩ := oneInduction isStart
      have isFront := nextInduction isStop
      rw [← same, List.drop_left] at isFront
      rw [← same, Match.followedBy_text]
      exact (List.prefix_append_right_inj _).mpr isFront
  | either one other oneInduction otherInduction =>
      rcases mem_found_either.mp isFound with isFound | isFound
      · exact oneInduction isFound
      · exact otherInduction isFound
  | group inner induction =>
      obtain ⟨within, isWithin, rfl⟩ := mem_found_group.mp isFound
      show within.text <+: rest
      exact induction isWithin

theorem mem_found_seq {one next : Pattern} {part : Match} :
    part ∈ (seq one next).found before rest ↔
      ∃ start back, start ∈ one.found before rest ∧ rest = start.text ++ back ∧
        ∃ stop ∈ next.found (start.text.getLast?.or before) back,
          part = start.followedBy stop := by
  rw [found_seq, List.mem_flatMap]
  constructor
  · rintro ⟨start, isStart, isFound⟩
    obtain ⟨stop, isStop, rfl⟩ := List.mem_map.mp isFound
    obtain ⟨back, rfl⟩ := found_isPrefix isStart
    rw [List.drop_left] at isStop
    exact ⟨start, back, isStart, rfl, stop, isStop, rfl⟩
  · rintro ⟨start, back, isStart, rfl, stop, isStop, rfl⟩
    refine ⟨start, isStart, List.mem_map.mpr ⟨stop, ?_, rfl⟩⟩
    rwa [List.drop_left]

theorem mem_found_letters_seq {word : List Char} {next : Pattern} {part : Match} :
    part ∈ (seq (letters word) next).found before rest ↔
      ∃ back, rest = word ++ back ∧
        ∃ stop ∈ next.found (word.getLast?.or before) back,
          part = (Match.plain word).followedBy stop := by
  rw [mem_found_seq]
  constructor
  · rintro ⟨start, back, isStart, rfl, stop, isStop, rfl⟩
    obtain ⟨rfl, -⟩ := mem_found_letters.mp isStart
    exact ⟨back, rfl, stop, isStop, rfl⟩
  · rintro ⟨back, rfl, stop, isStop, rfl⟩
    exact ⟨.plain word, back,
      mem_found_letters.mpr ⟨rfl, List.prefix_append _ _⟩, rfl, stop, isStop, rfl⟩

theorem first_eq_none : pattern.first before rest = none ↔
    pattern.found before rest = [] := List.head?_eq_none_iff

theorem first_isSome {part : Match} (isFound : part ∈ pattern.found before rest) :
    ∃ other, pattern.first before rest = some other := by
  rw [← Option.isSome_iff_exists, first, List.isSome_head?]
  rintro none
  rw [none] at isFound
  cases isFound

/-! ## First matches -/

theorem found_letters_seq (word : List Char) (next : Pattern) :
    (seq (letters word) next).found before (word ++ rest) =
      (next.found (word.getLast?.or before) rest).map
        (Match.plain word).followedBy := by
  rw [found_seq, found_letters, if_pos (List.prefix_append _ _), List.flatMap_cons,
    List.flatMap_nil, List.append_nil, Match.plain_text, List.drop_left]

theorem found_letters_nil (next : Pattern) :
    (seq (letters []) next).found before rest = next.found before rest := by
  have same : (Match.plain []).followedBy = id := by
    funext part
    rw [Match.followedBy, Match.plain, Option.or_none, List.nil_append]
    rfl
  have isRest : (seq (letters []) next).found before ([] ++ rest) = _ :=
    found_letters_seq [] next
  rwa [same, List.map_id, List.nil_append] at isRest

theorem found_seq_congr {next other : Pattern} (first : Pattern)
    (same : ∀ before rest, next.found before rest = other.found before rest) :
    (seq first next).found before rest = (seq first other).found before rest := by
  rw [found_seq, found_seq]
  simp only [same]

theorem found_letters_seq_of_not {word : List Char} (next : Pattern)
    (absent : ¬ word <+: rest) :
    (seq (letters word) next).found before rest = [] := by
  rw [found_seq, found_letters, if_neg absent, List.flatMap_nil]

/-- The first item that is mapped to a value. -/
theorem findSome?_range {β : Type} {value : Nat → Option β} {index bound : Nat}
    {result : β} (fits : index < bound) (hasValue : value index = some result)
    (noneBefore : ∀ earlier < index, value earlier = none) :
    (List.range bound).findSome? value = some result := by
  rw [List.findSome?_eq_some_iff]
  obtain ⟨more, rfl⟩ := Nat.exists_eq_add_of_lt fits
  refine ⟨List.range index, index,
    (List.range more).map (index + 1 + ·), ?_, hasValue, ?_⟩
  · rw [show index + more + 1 = (index + 1) + more by omega, List.range_add,
      List.range_succ, List.append_assoc, List.singleton_append]
  · exact fun earlier member => noneBefore earlier (List.mem_range.mp member)

/-- The shortest text up to a word, in a group that begins with another. -/
theorem first_group_fewest {word close body tail : List Char}
    {test : Char → Bool} (passes : ∀ char ∈ body, test char = true)
    (isFirst : ∀ part left, body = part ++ left → left ≠ [] →
      ¬ close <+: left ++ (close ++ tail)) :
    (seq (group (seq (letters word) (fewest test))) (letters close)).first
        before (word ++ (body ++ (close ++ tail))) =
      some ⟨word ++ body ++ close, some (word ++ body)⟩ := by
  have fits : body.length <
      ((body ++ (close ++ tail)).takeWhile test).length + 1 :=
    Nat.lt_succ_iff.mpr (le_takeWhile_iff.mpr passes)
  rw [first, found_seq, found_group, found_letters_seq, found_fewest, List.map_map,
    List.map_map, List.flatMap_map, List.head?_flatMap]
  refine findSome?_range fits ?_ ?_
  · simp only [Function.comp_apply, Match.followedBy_text, Match.plain_text,
      List.take_left, ← List.append_assoc word, List.drop_left]
    rw [found_letters, if_pos (List.prefix_append _ _)]
    rfl
  · intro length shorter
    obtain ⟨part, left, rfl, rfl⟩ := exists_split shorter.le
    have notNil : left ≠ [] := by
      rintro rfl
      rw [List.append_nil] at shorter
      exact lt_irrefl _ shorter
    simp only [Function.comp_apply, Match.followedBy_text, Match.plain_text,
      List.append_assoc part, List.take_left, ← List.append_assoc word,
      List.drop_left]
    rw [found_letters, if_neg (isFirst part left rfl notNil)]
    rfl

/-! ## Search -/

/-- The first match in the rest of a text. -/
def searchFrom (pattern : Pattern) : Option Char → List Char → Option Match
  | before, [] => pattern.first before []
  | before, char :: rest =>
      (pattern.first before (char :: rest)).or
        (searchFrom pattern (some char) rest)

/-- The first match in a text. -/
def search (pattern : Pattern) (text : List Char) : Option Match :=
  pattern.searchFrom none text

/-- The pattern has no match at a place of the front. -/
def Passes (pattern : Pattern) (before : Option Char)
    (front rest : List Char) : Prop :=
  ∀ passed left, front = passed ++ left → left ≠ [] →
    pattern.found (passed.getLast?.or before) (left ++ rest) = []

/-- The character before the rest is the last one that has been passed. -/
theorem getLast?_cons_or (char : Char) (passed : List Char) :
    (char :: passed).getLast?.or before = passed.getLast?.or (some char) := by
  rw [List.getLast?_cons]
  cases passed.getLast? <;> rfl

theorem passes_nil : pattern.Passes before [] rest := by
  intro passed left same notNil
  exact absurd (List.append_eq_nil_iff.mp same.symm).2 notNil

theorem passes_cons {char : Char} {front : List Char} :
    pattern.Passes before (char :: front) rest ↔
      pattern.found before (char :: front ++ rest) = [] ∧
        pattern.Passes (some char) front rest := by
  constructor
  · intro passes
    refine ⟨passes [] _ rfl (List.cons_ne_nil _ _), fun passed left same notNil => ?_⟩
    have none := passes (char :: passed) left (by rw [same]; rfl) notNil
    rwa [getLast?_cons_or] at none
  · rintro ⟨none, passes⟩ passed left same notNil
    cases passed with
    | nil =>
        rw [List.nil_append] at same
        subst same
        exact none
    | cons other passed =>
        obtain ⟨rfl, rfl⟩ := List.cons.inj same
        rw [getLast?_cons_or]
        exact passes passed left rfl notNil

theorem searchFrom_congr {other : Pattern}
    (same : ∀ before rest, pattern.found before rest = other.found before rest)
    (text : List Char) :
    pattern.searchFrom before text = other.searchFrom before text := by
  induction text generalizing before with
  | nil => rw [searchFrom, searchFrom, first, first, same]
  | cons char text induction =>
      rw [searchFrom, searchFrom, first, first, same, induction]

theorem searchFrom_eq_some {text : List Char} {part : Match} :
    pattern.searchFrom before text = some part ↔
      ∃ front rest, text = front ++ rest ∧
        pattern.first (front.getLast?.or before) rest = some part ∧
          pattern.Passes before front rest := by
  induction text generalizing before with
  | nil =>
      rw [searchFrom]
      constructor
      · exact fun isFirst => ⟨[], [], rfl, isFirst, passes_nil⟩
      · rintro ⟨front, rest, same, isFirst, -⟩
        obtain ⟨rfl, rfl⟩ := List.append_eq_nil_iff.mp same.symm
        exact isFirst
  | cons char text induction =>
      rw [searchFrom, Option.or_eq_some_iff, induction]
      constructor
      · rintro (isFirst | ⟨none, front, rest, rfl, isFirst, passes⟩)
        · exact ⟨[], char :: text, rfl, isFirst, passes_nil⟩
        · refine ⟨char :: front, rest, rfl, ?_,
            passes_cons.mpr ⟨first_eq_none.mp none, passes⟩⟩
          rwa [getLast?_cons_or]
      · rintro ⟨front, rest, same, isFirst, passes⟩
        cases front with
        | nil =>
            rw [List.nil_append] at same
            subst same
            exact Or.inl isFirst
        | cons other front =>
            obtain ⟨rfl, rfl⟩ := List.cons.inj same
            obtain ⟨none, passes⟩ := passes_cons.mp passes
            refine Or.inr ⟨first_eq_none.mpr none, front, rest, rfl, ?_, passes⟩
            rwa [getLast?_cons_or] at isFirst

theorem searchFrom_eq_none {text : List Char} :
    pattern.searchFrom before text = none ↔
      ∀ front rest, text = front ++ rest →
        pattern.found (front.getLast?.or before) rest = [] := by
  induction text generalizing before with
  | nil =>
      rw [searchFrom, first_eq_none]
      constructor
      · intro none front rest same
        obtain ⟨rfl, rfl⟩ := List.append_eq_nil_iff.mp same.symm
        exact none
      · exact fun none => none [] [] rfl
  | cons char text induction =>
      rw [searchFrom, Option.or_eq_none_iff, induction, first_eq_none]
      constructor
      · rintro ⟨here, later⟩ front rest same
        cases front with
        | nil =>
            rw [List.nil_append] at same
            subst same
            exact here
        | cons other front =>
            obtain ⟨rfl, rfl⟩ := List.cons.inj same
            rw [getLast?_cons_or]
            exact later front rest rfl
      · intro none
        refine ⟨none [] _ rfl, fun front rest same => ?_⟩
        have later := none (char :: front) rest (by rw [same]; rfl)
        rwa [getLast?_cons_or] at later

end Pattern

end Patterns
