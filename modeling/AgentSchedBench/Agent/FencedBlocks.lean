import AgentSchedBench.Agent.PatchExtraction

/-!
# Fenced blocks

Where the two fence patterns match.  A fence opens a block when only blanks
stand between it and the end of its line, and the block goes up to the next
line that begins with a fence.
-/

namespace AgentSchedBench.Agent

open Trace (Text strip)
open Patterns Pattern

/-- Lines that end, if there are any. -/
def WholeLines (text : Text) : Prop := ∀ char ∈ text.getLast?, char = '\n'

/-- Only blanks. -/
def Blank (text : Text) : Prop := ∀ char ∈ text, isSpace char = true

theorem wholeLines_right {front back : Text} (whole : WholeLines (front ++ back)) :
    WholeLines back := by
  intro char isLast
  refine whole char ?_
  rw [List.getLast?_append, Option.mem_def.mp isLast]
  rfl

/-- A word without a line feed ends before a line does. -/
theorem word_in_lines {word lines more rest : Text} (noFeed : '\n' ∉ word)
    (whole : WholeLines lines) (notNil : lines ≠ [])
    (same : lines ++ more = word ++ rest) :
    ∃ left, lines = word ++ left ∧ left ≠ [] ∧ left ++ more = rest := by
  have feeds : '\n' ∈ lines := by
    have isLast := List.getLast?_eq_some_getLast notNil
    rw [← whole _ isLast]
    exact List.getLast_mem notNil
  rcases List.append_eq_append_iff.mp same with
    ⟨left, rfl, -⟩ | ⟨left, rfl, behind⟩
  · exact absurd (List.mem_append_left _ feeds) noFeed
  · refine ⟨left, rfl, ?_, behind.symm⟩
    rintro rfl
    rw [List.append_nil] at feeds
    exact noFeed feeds

/-- What opens a block, and the word that the block begins with. -/
structure Fence where
  opening : Text
  word : Text
  opening_noFeed : '\n' ∉ opening
  word_noFeed : '\n' ∉ word
  word_head : word.head? ≠ some '`'
  opening_head : opening.head? = some '`'
  opening_last : ∃ char ∈ opening.getLast?, isSpace char = false

namespace Fence

def diff : Fence :=
  ⟨"```diff".toList, [], by decide, by decide, by decide, rfl,
    ⟨'f', by decide⟩⟩

def plain : Fence :=
  ⟨"```".toList, "diff --git".toList, by decide, by decide, by decide, rfl,
    ⟨'`', by decide⟩⟩

variable (mark : Fence)

def pattern : Pattern :=
  fenced mark.opening (.seq (.letters mark.word) anyText)

/-- The opening with blanks and the block behind it. -/
def blockText (blanks body back : Text) : Text :=
  mark.opening ++ (blanks ++ '\n' ::
    (mark.word ++ (body ++ ("\n```".toList ++ back))))

/-- A block has been opened in the text. -/
def HasOpening (text : Text) : Prop :=
  ∃ front blanks rest, Blank blanks ∧
    text = front ++ (mark.opening ++ (blanks ++ '\n' :: (mark.word ++ rest)))

/-- A block has been opened and closed in the text. -/
def HasBlock (text : Text) : Prop :=
  ∃ front blanks body back, Blank blanks ∧
    text = front ++ mark.blockText blanks body back

variable {mark} {before : Option Char} {rest : Text}

theorem mem_found {part : Match} :
    part ∈ mark.pattern.found before rest ↔
      ∃ blanks body back, Blank blanks ∧
        rest = mark.blockText blanks body back ∧
          part = ⟨mark.blockText blanks body [], some (mark.word ++ body)⟩ := by
  rw [pattern, fenced, mem_found_letters_seq]
  constructor
  · rintro ⟨_, rfl, _, isRest, rfl⟩
    obtain ⟨_, _, isBlanks, rfl, _, isLine, rfl⟩ := mem_found_seq.mp isRest
    obtain ⟨blanks, _, -, rfl, blank, -⟩ := mem_found_many.mp isBlanks
    obtain ⟨_, rfl, _, isBlock, rfl⟩ := mem_found_letters_seq.mp isLine
    obtain ⟨_, _, isGroup, rfl, _, isClose, rfl⟩ := mem_found_seq.mp isBlock
    obtain ⟨rfl, back, rfl⟩ := mem_found_letters.mp isClose
    obtain ⟨_, isWithin, rfl⟩ := mem_found_group.mp isGroup
    obtain ⟨_, -, _, isBody, rfl⟩ := mem_found_letters_seq.mp isWithin
    obtain ⟨body, _, -, rfl, -⟩ := mem_found_fewest.mp isBody
    exact ⟨blanks, body, back, blank, by simp [blockText],
      by simp [blockText, Match.followedBy, Match.plain]⟩
  · rintro ⟨blanks, body, back, blank, rfl, rfl⟩
    have isWithin : (Match.plain mark.word).followedBy (.plain body) ∈
        (seq (letters mark.word) anyText).found (some '\n')
          (mark.word ++ (body ++ ("\n```".toList ++ back))) :=
      mem_found_letters_seq.mpr ⟨_, rfl, _,
        mem_found_fewest.mpr ⟨body, _, rfl, rfl, fun _ _ => rfl⟩, rfl⟩
    have isBlock := mem_found_seq.mpr ⟨_, "\n```".toList ++ back,
      mem_found_group.mpr ⟨_, isWithin, rfl⟩, (List.append_assoc _ _ _).symm, _,
      mem_found_letters.mpr ⟨rfl, List.prefix_append _ _⟩, rfl⟩
    refine ⟨_, rfl, _, mem_found_seq.mpr ⟨.plain blanks, _,
      mem_found_many.mpr ⟨blanks, _, rfl, rfl, blank, Nat.zero_le _, by rintro _ ⟨⟩⟩,
      rfl, _, mem_found_letters_seq.mpr ⟨_, rfl, _, isBlock, rfl⟩, rfl⟩, ?_⟩
    simp [blockText, Match.followedBy, Match.plain]

/-- The block ends where the first line begins with a fence. -/
theorem first_block {body back : Text}
    (head : ∃ char ∈ (mark.word ++ body).head?, isSpace char = false)
    (noFence : ∀ part left, body = part ++ left → left ≠ [] →
      ¬ "\n```".toList <+: left ++ ("\n```".toList ++ back)) :
    mark.pattern.first before (mark.blockText [] body back) =
      some ⟨mark.blockText [] body [], some (mark.word ++ body)⟩ := by
  obtain ⟨char, isHead, isPlain⟩ := head
  obtain ⟨tail, isTail⟩ : ∃ tail,
      mark.word ++ (body ++ ("\n```".toList ++ back)) = char :: tail := by
    obtain ⟨more, same⟩ := List.head?_eq_some_iff.mp (Option.mem_def.mp isHead)
    exact ⟨more ++ ("\n```".toList ++ back), by
      rw [← List.append_assoc, same, List.cons_append]⟩
  have oneBlank :
      greedyLengths 0 none
        (('\n' :: char :: tail).takeWhile isSpace).length = [1, 0] := by
    rw [List.takeWhile_cons_of_pos (by decide),
      List.takeWhile_cons_of_neg (by simp [isPlain])]
    rfl
  have notFeed : ¬ ['\n'] <+: char :: tail := by
    rintro ⟨_, same⟩
    cases (List.cons.inj same).1
    cases isPlain
  have isFirst : (seq (group (seq (letters mark.word) anyText))
      (letters "\n```".toList)).first (some '\n') _ = _ :=
    first_group_fewest (fun _ _ => rfl) noFence
  rw [isTail, first] at isFirst
  have isLine (before : Option Char) (next : Pattern) :
      (seq (letters ['\n']) next).found before ('\n' :: char :: tail) =
        (next.found (some '\n') (char :: tail)).map
          (Match.plain ['\n']).followedBy := found_letters_seq ['\n'] next
  rw [pattern, fenced, first, blockText, List.nil_append, found_letters_seq,
    List.head?_map, found, isTail, found, oneBlank]
  simp only [List.map_cons, List.map_nil, List.flatMap_cons, List.flatMap_nil,
    List.take_succ_cons, List.take_zero, Match.plain_text, List.length_cons,
    List.length_nil, List.drop_succ_cons, List.drop_zero, List.append_nil]
  rw [found_letters_seq_of_not _ notFeed, List.map_nil, List.nil_append,
    isLine, List.map_map, List.head?_map, isFirst]
  simp [blockText, Match.followedBy, Match.plain]

/-- In front of a fence a block is opened only in the lines that end there. -/
theorem hasOpening_of_lines {lines more blanks rest : Text}
    (whole : WholeLines lines) (notNil : lines ≠ []) (blank : Blank blanks)
    (same : lines ++ '`' :: more =
      mark.opening ++ (blanks ++ '\n' :: (mark.word ++ rest))) :
    ∃ left, lines = mark.opening ++ (blanks ++ '\n' :: (mark.word ++ left)) := by
  obtain ⟨afterOpening, rfl, notNil, same⟩ :=
    word_in_lines mark.opening_noFeed whole notNil same
  have whole := wholeLines_right whole
  rcases List.append_eq_append_iff.mp same with
    ⟨left, rfl, behind⟩ | ⟨left, rfl, behind⟩
  · cases left with
    | nil => cases (List.cons.inj behind).1
    | cons char left =>
        cases (List.cons.inj behind).1
        exact absurd (blank '`' (by simp)) (by decide)
  · have whole := wholeLines_right whole
    cases left with
    | nil => cases (List.cons.inj behind).1
    | cons char left =>
        obtain ⟨rfl, sameWord⟩ := List.cons.inj behind
        by_cases isNil : left = []
        · subst isNil
          cases isWord : mark.word with
          | nil => exact ⟨[], rfl⟩
          | cons first word =>
              rw [isWord] at sameWord
              have notTick := mark.word_head
              rw [isWord, ← (List.cons.inj sameWord).1] at notTick
              exact absurd rfl notTick
        · have whole : WholeLines left := wholeLines_right
            (show WholeLines (['\n'] ++ left) from whole)
          obtain ⟨left, rfl, -⟩ :=
            word_in_lines mark.word_noFeed whole isNil sameWord.symm
          exact ⟨left, rfl⟩

theorem search_eq_none {text : Text} (noBlock : ¬ mark.HasBlock text) :
    mark.pattern.search text = none := by
  rw [search, searchFrom_eq_none]
  rintro front rest rfl
  refine List.eq_nil_iff_forall_not_mem.mpr fun part isFound => ?_
  obtain ⟨blanks, body, back, blank, rfl, -⟩ := mem_found.mp isFound
  exact noBlock ⟨front, blanks, body, back, blank, rfl⟩

/-- What is found is a block, of which the group has all but the fences. -/
theorem search_eq_some {text : Text} {part : Match}
    (isFound : mark.pattern.search text = some part) :
    ∃ front blanks body back, Blank blanks ∧
      text = front ++ mark.blockText blanks body back ∧
        part.inGroup = some (mark.word ++ body) ∧
          mark.pattern.Passes none front (mark.blockText blanks body back) := by
  obtain ⟨front, rest, rfl, isFirst, passes⟩ := searchFrom_eq_some.mp isFound
  obtain ⟨blanks, body, back, blank, rfl, rfl⟩ :=
    mem_found.mp (List.mem_of_head? isFirst)
  exact ⟨front, blanks, body, back, blank, rfl, rfl, passes⟩

theorem found_blockText {blanks body back : Text} (blank : Blank blanks) :
    mark.pattern.found before (mark.blockText blanks body back) ≠ [] :=
  List.ne_nil_of_mem (mem_found.mpr ⟨blanks, body, back, blank, rfl, rfl⟩)

theorem search_of_hasBlock {text : Text} (hasBlock : mark.HasBlock text) :
    ∃ part, mark.pattern.search text = some part := by
  obtain ⟨front, blanks, body, back, blank, rfl⟩ := hasBlock
  rw [← Option.ne_none_iff_exists']
  intro isNone
  exact found_blockText blank (searchFrom_eq_none.mp isNone front _ rfl)

/-- A block behind lines that open none is found. -/
theorem search_block {lines body back : Text} (whole : WholeLines lines)
    (noOpening : ¬ mark.HasOpening lines)
    (head : ∃ char ∈ (mark.word ++ body).head?, isSpace char = false)
    (noFence : ∀ part left, body = part ++ left → left ≠ [] →
      ¬ "\n```".toList <+: left ++ ("\n```".toList ++ back)) :
    mark.pattern.search (lines ++ mark.blockText [] body back) =
      some ⟨mark.blockText [] body [], some (mark.word ++ body)⟩ := by
  refine searchFrom_eq_some.mpr ⟨lines, _, rfl, first_block head noFence, ?_⟩
  rintro passed left rfl notNil
  refine List.eq_nil_iff_forall_not_mem.mpr fun part isFound => ?_
  obtain ⟨blanks, other, rest, blank, same, -⟩ := mem_found.mp isFound
  obtain ⟨tail, isTick⟩ := List.head?_eq_some_iff.mp mark.opening_head
  have front : mark.blockText [] body back =
      '`' :: (tail ++ ('\n' :: (mark.word ++ (body ++
        ("\n```".toList ++ back))))) := by
    rw [blockText, isTick]
    rfl
  rw [front] at same
  obtain ⟨more, rfl⟩ :=
    hasOpening_of_lines (wholeLines_right whole) notNil blank same
  exact noOpening ⟨passed, blanks, more, blank, rfl⟩

/-- Behind an opening an earlier block is found. -/
theorem search_opened {lines body back : Text}
    (opened : mark.HasOpening lines) :
    ∃ part front blanks other rest,
      mark.pattern.search (lines ++ mark.blockText [] body back) = some part ∧
        front.length < lines.length ∧ Blank blanks ∧
          lines ++ mark.blockText [] body back =
            front ++ mark.blockText blanks other rest ∧
              part.inGroup = some (mark.word ++ other) := by
  obtain ⟨start, blanks, more, blank, rfl⟩ := opened
  have early : start ++ (mark.opening ++ (blanks ++ '\n' ::
      (mark.word ++ more))) ++ mark.blockText [] body back =
        start ++ mark.blockText blanks
          (more ++ (mark.opening ++ '\n' :: (mark.word ++ body))) back := by
    simp [blockText]
  obtain ⟨part, isFound⟩ :=
    search_of_hasBlock ⟨start, blanks, _, back, blank, early⟩
  obtain ⟨front, others, other, rest, othersBlank, same, isGroup, passes⟩ :=
    search_eq_some isFound
  refine ⟨part, front, others, other, rest, isFound, ?_, othersBlank, same,
    isGroup⟩
  by_contra late
  rw [Nat.not_lt] at late
  have isStart : start <+: front := by
    have within : start <+: front ++ mark.blockText others other rest :=
      ⟨_, early.symm.trans same⟩
    refine List.prefix_of_prefix_length_le within (List.prefix_append _ _) ?_
    exact le_trans (by simp) late
  obtain ⟨left, rfl⟩ := isStart
  have notNil : left ≠ [] := by
    rintro rfl
    simp at late
  rw [early, List.append_assoc, List.append_cancel_left_eq] at same
  exact found_blockText blank (same ▸ passes start left rfl notNil)

end Fence

end AgentSchedBench.Agent
