import AgentSchedBench.Agent.GitDiffs

/-!
# Scraped patches

What is scraped from a stripped text that has a diff in it: in a block, or
behind lines of another kind.  The diff is found exactly if nothing before it
is taken for it, unless the text has the same diff in another place.
-/

namespace AgentSchedBench.Agent

open Trace (Text strip)
open TextLines Patterns

/-! ## Lines -/

theorem startsDiff_iff {text : Text} :
    startsDiff text = true ↔ "diff --git".toList <+: text :=
  List.isPrefixOf_iff_prefix

/-- The lines that end, and what is behind them. -/
theorem exists_lines (text : Text) :
    ∃ (lines : List Text) (last : Text),
      (∀ line ∈ lines, '\n' ∉ line) ∧ '\n' ∉ last ∧
      text = lines.flatMap (· ++ ['\n']) ++ last := by
  induction text with
  | nil => exact ⟨[], [], nofun, nofun, rfl⟩
  | cons char rest induction =>
      obtain ⟨lines, last, noFeed, lastNoFeed, rfl⟩ := induction
      by_cases isFeed : char = '\n'
      · subst isFeed
        exact ⟨[] :: lines, last, by simpa using noFeed, lastNoFeed, rfl⟩
      · cases lines with
        | nil =>
            exact ⟨[], char :: last, nofun, by
              simpa [Ne.symm isFeed] using lastNoFeed, rfl⟩
        | cons line lines =>
            refine ⟨(char :: line) :: lines, last, ?_, lastNoFeed, rfl⟩
            rw [List.forall_mem_cons] at noFeed ⊢
            exact ⟨by simpa [Ne.symm isFeed] using noFeed.1, noFeed.2⟩

theorem WholeLines.exists_lines {text : Text} (whole : WholeLines text) :
    ∃ lines : List Text, (∀ line ∈ lines, '\n' ∉ line) ∧
      text = lines.flatMap (· ++ ['\n']) := by
  obtain ⟨lines, last, noFeed, lastNoFeed, rfl⟩ := Agent.exists_lines text
  cases isLast : last.getLast? with
  | none =>
      rw [List.getLast?_eq_none_iff.mp isLast, List.append_nil]
      exact ⟨lines, noFeed, rfl⟩
  | some char =>
      have isFeed := wholeLines_right whole char isLast
      subst isFeed
      exact absurd (List.mem_of_getLast? isLast) lastNoFeed

theorem startsDiff_line {line : Text} (noFeed : '\n' ∉ line) (rest : Text) :
    startsDiff (line ++ '\n' :: rest) = startsDiff line := by
  rw [Bool.eq_iff_iff, startsDiff_iff, startsDiff_iff]
  constructor
  · rintro ⟨back, same⟩
    rcases List.append_eq_append_iff.mp same with
      ⟨left, rfl, -⟩ | ⟨left, isWord, behind⟩
    · exact List.prefix_append _ _
    · cases left with
      | nil =>
          rw [List.append_nil] at isWord
          rw [isWord]
      | cons char left =>
          cases (List.cons.inj behind).1
          have noWordFeed : '\n' ∉ "diff --git".toList := by decide
          rw [isWord] at noWordFeed
          exact absurd (by simp) noWordFeed
  · exact fun isPrefix => isPrefix.trans (List.prefix_append _ _)

theorem patchFromLines_line {line : Text} (noFeed : '\n' ∉ line)
    (notDiff : startsDiff line = false) (rest : Text) :
    patchFromLines (line ++ '\n' :: rest) = patchFromLines rest := by
  rw [patchFromLines, List.splitOn_append_cons_self_of_not_mem noFeed,
    List.dropWhile_cons_of_pos (by simp [notDiff]), patchFromLines]

/-- A text that begins with a diff is taken whole. -/
theorem patchFromLines_diff {text : Text} (isDiff : startsDiff text = true) :
    patchFromLines text = strip text := by
  obtain ⟨first, others, same, firstDiff⟩ : ∃ first others,
      text.splitOn '\n' = first :: others ∧ startsDiff first = true := by
    obtain ⟨lines, last, noFeed, lastNoFeed, rfl⟩ := exists_lines text
    cases lines with
    | nil =>
        exact ⟨last, [], List.splitOn_eq_singleton lastNoFeed, isDiff⟩
    | cons line lines =>
        rw [List.forall_mem_cons] at noFeed
        rw [List.flatMap_cons, List.append_assoc, List.append_assoc,
          List.singleton_append] at isDiff ⊢
        rw [startsDiff_line noFeed.1] at isDiff
        exact ⟨line, _, List.splitOn_append_cons_self_of_not_mem noFeed.1 _,
          isDiff⟩
  have whole : ['\n'].intercalate (text.splitOn '\n') = text :=
    List.intercalate_splitOn '\n'
  rw [patchFromLines, same, List.dropWhile_cons_of_neg (by simp [firstDiff])]
  rw [same] at whole
  exact congrArg strip whole

/-- Lines before a diff are passed, up to the first that begins one. -/
theorem patchFromLines_lines {lines : List Text}
    (noFeed : ∀ line ∈ lines, '\n' ∉ line) {diff : Text}
    (isDiff : startsDiff diff = true) :
    (∀ line ∈ lines, startsDiff line = false) ∧
        patchFromLines (lines.flatMap (· ++ ['\n']) ++ diff) = strip diff ∨
      (∃ line ∈ lines, startsDiff line = true) ∧
        ∃ more, more ≠ [] ∧ startsDiff (more ++ diff) = true ∧
          patchFromLines (lines.flatMap (· ++ ['\n']) ++ diff) =
            strip (more ++ diff) := by
  induction lines with
  | nil => exact Or.inl ⟨nofun, patchFromLines_diff isDiff⟩
  | cons line lines induction =>
      rw [List.forall_mem_cons] at noFeed
      rw [List.flatMap_cons, List.append_assoc, List.append_assoc,
        List.singleton_append]
      cases lineDiff : startsDiff line with
      | true =>
          have allDiff := startsDiff_line noFeed.1
            (lines.flatMap (· ++ ['\n']) ++ diff)
          rw [lineDiff] at allDiff
          refine Or.inr ⟨⟨line, List.mem_cons_self, lineDiff⟩,
            line ++ '\n' :: lines.flatMap (· ++ ['\n']),
            List.append_ne_nil_of_right_ne_nil _ (List.cons_ne_nil _ _), ?_⟩
          rw [List.append_assoc, List.cons_append]
          exact ⟨allDiff, patchFromLines_diff allDiff⟩
      | false =>
          rw [patchFromLines_line noFeed.1 lineDiff]
          rcases induction noFeed.2 with ⟨none, same⟩ | ⟨⟨other, member, isOther⟩,
            more⟩
          · exact Or.inl ⟨List.forall_mem_cons.mpr ⟨lineDiff, none⟩, same⟩
          · exact Or.inr ⟨⟨other, List.mem_cons_of_mem _ member, isOther⟩, more⟩

/-- The lines begin with a diff if the first one does. -/
theorem startsDiff_lines {lines : List Text}
    (noFeed : ∀ line ∈ lines, '\n' ∉ line) (notNil : lines ≠ []) (rest : Text)
    (noDiff : ∀ line ∈ lines, startsDiff line = false) :
    startsDiff (lines.flatMap (· ++ ['\n']) ++ rest) = false := by
  obtain ⟨line, lines, rfl⟩ := List.exists_cons_of_ne_nil notNil
  rw [List.forall_mem_cons] at noFeed noDiff
  rw [List.flatMap_cons, List.append_assoc, List.append_assoc,
    List.singleton_append, startsDiff_line noFeed.1]
  exact noDiff.1

/-- Before a fence a diff begins only in the lines that end there. -/
theorem startsDiff_fence {lines : Text} (whole : WholeLines lines)
    (more : Text) :
    startsDiff (lines ++ '`' :: more) = startsDiff lines := by
  rw [Bool.eq_iff_iff, startsDiff_iff, startsDiff_iff]
  constructor
  · rintro ⟨back, same⟩
    by_cases isNil : lines = []
    · subst isNil
      cases (List.cons.inj same).1
    · obtain ⟨left, rfl, -⟩ :=
        word_in_lines (by decide) whole isNil same.symm
      exact List.prefix_append _ _
  · exact fun isPrefix => isPrefix.trans (List.prefix_append _ _)

/-! ## Blocks -/

/-- A fence that asks for no word matches like one that names none. -/
theorem diffFence_search (text : Text) :
    diffFence.search text = Fence.diff.pattern.search text := by
  refine Pattern.searchFrom_congr (fun before rest => ?_) text
  refine Pattern.found_seq_congr _ fun before rest => ?_
  refine Pattern.found_seq_congr _ fun before rest => ?_
  refine Pattern.found_seq_congr _ fun before rest => ?_
  have noWord : Fence.diff.word = [] := rfl
  rw [Pattern.found, Pattern.found, Pattern.found, Pattern.found, noWord,
    Pattern.found_letters_nil]

/-- The diff is in the text at one place only. -/
def OnceAt (text front diff : Text) : Prop :=
  ∀ start back, text = start ++ (diff ++ back) → start = front

/-- Texts that go on with blanks only, and do not end in one, are the same. -/
theorem eq_of_blank_tails {left right leftTail rightTail : Text}
    (leftEnd : ∃ char ∈ left.getLast?, isSpace char = false)
    (rightEnd : ∃ char ∈ right.getLast?, isSpace char = false)
    (leftBlank : Blank leftTail) (rightBlank : Blank rightTail)
    (same : left ++ leftTail = right ++ rightTail) : left = right := by
  have noMore {text more tail rest : Text}
      (plainEnd : ∃ char ∈ (text ++ more).getLast?, isSpace char = false)
      (blank : Blank tail) (same : tail = more ++ rest) : more = [] := by
    by_contra notNil
    obtain ⟨char, isLast, plain⟩ := plainEnd
    rw [List.getLast?_append_of_ne_nil _ notNil] at isLast
    rw [blank char (same ▸ List.mem_append_left _
      (List.mem_of_getLast? isLast))] at plain
    cases plain
  rcases List.append_eq_append_iff.mp same with
    ⟨more, rfl, behind⟩ | ⟨more, rfl, behind⟩
  · rw [noMore rightEnd leftBlank behind, List.append_nil]
  · rw [noMore leftEnd rightBlank behind, List.append_nil]

theorem strip_split_both (text : Text) :
    ∃ lead trail, Blank lead ∧ Blank trail ∧
      text = lead ++ (strip text ++ trail) := by
  obtain ⟨trail, blank, same⟩ := strip_split text
  refine ⟨text.takeWhile isSpace, trail,
    fun char member => List.mem_takeWhile_imp member, blank, ?_⟩
  rw [← same, List.takeWhile_append_dropWhile]

namespace Fence

variable {mark : Fence}

theorem opening_end (front : Text) :
    ∃ char ∈ (front ++ mark.opening).getLast?, isSpace char = false := by
  obtain ⟨char, isLast, plain⟩ := mark.opening_last
  refine ⟨char, ?_, plain⟩
  rw [List.getLast?_append, Option.mem_def.mp isLast]
  rfl

/-- Where the patch of a block stands in the text. -/
theorem groupPatch_at {text front blanks other rest diff : Text} {part : Match}
    (same : text = front ++ mark.blockText blanks other rest)
    (isGroup : part.inGroup = some (mark.word ++ other))
    (isDiff : groupPatch part = diff) :
    ∃ lead trail, Blank lead ∧
      text = front ++ (mark.opening ++ (blanks ++ '\n' :: lead)) ++
        (diff ++ (trail ++ ("\n```".toList ++ rest))) := by
  obtain ⟨lead, trail, blank, -, isText⟩ := strip_split_both (mark.word ++ other)
  rw [groupPatch, isGroup, Option.getD_some] at isDiff
  refine ⟨lead, trail, blank, ?_⟩
  rw [isDiff] at isText
  rw [same, blockText, ← List.append_assoc mark.word, isText]
  simp

/-- A patch in another block than the diff's is not the diff. -/
theorem front_of_once {text front lines blanks other rest diff : Text}
    {part : Match} {own : Fence} (blank : Blank blanks)
    (same : text = front ++ mark.blockText blanks other rest)
    (isGroup : part.inGroup = some (mark.word ++ other))
    (isDiff : groupPatch part = diff)
    (once : OnceAt text (lines ++ (own.opening ++ ['\n'])) diff) :
    front ++ mark.opening = lines ++ own.opening := by
  obtain ⟨lead, trail, leadBlank, isText⟩ := groupPatch_at same isGroup isDiff
  have place : front ++ mark.opening ++ (blanks ++ '\n' :: lead) =
      lines ++ own.opening ++ ['\n'] := by
    rw [List.append_assoc, List.append_assoc]
    exact once _ _ isText
  refine eq_of_blank_tails (mark.opening_end _) (own.opening_end _) ?_ ?_ place
  · intro char member
    rcases List.mem_append.mp member with member | member
    · exact blank char member
    · rcases List.mem_cons.mp member with rfl | member
      · rfl
      · exact leadBlank char member
  · rintro char member
    cases List.mem_singleton.mp member
    rfl

variable {diff : GitDiff} {lines inner after : Text}

theorem search_own (after : Text) (isBody : mark.word ++ inner = diff.body)
    (whole : WholeLines lines) (noOpening : ¬ mark.HasOpening lines) :
    ∃ part, mark.pattern.search (lines ++ mark.blockText [] inner after) =
        some part ∧ groupPatch part = strip diff.body := by
  refine ⟨_, search_block whole noOpening ?_ ?_, ?_⟩
  · obtain ⟨rest, begins⟩ := diff.body_begins
    rw [isBody, begins]
    exact ⟨'d', rfl, by decide⟩
  · have closing : "\n```".toList = ['\n', '`', '`', '`'] := by decide
    rw [closing]
    rintro part left rfl notNil ⟨back, fenced⟩
    obtain ⟨first, left, rfl⟩ := List.exists_cons_of_ne_nil notNil
    obtain ⟨rfl, behind⟩ := List.cons.inj fenced
    cases left with
    | nil => cases (List.cons.inj behind).1
    | cons second left =>
        obtain ⟨rfl, -⟩ := List.cons.inj behind
        refine diff.body_noFence (mark.word ++ part) left ?_
        rw [← isBody, List.append_assoc]
  · rw [groupPatch, Option.getD_some, isBody]

theorem search_not_own (opened : mark.HasOpening lines)
    (once : OnceAt (lines ++ mark.blockText [] inner after)
      (lines ++ (mark.opening ++ ['\n'])) diff.body) :
    ∃ part, mark.pattern.search (lines ++ mark.blockText [] inner after) =
        some part ∧ groupPatch part ≠ diff.body := by
  obtain ⟨part, front, blanks, other, rest, isFound, shorter, blank, same,
    isGroup⟩ := search_opened opened
  refine ⟨part, isFound, fun isDiff => ?_⟩
  have place := front_of_once blank same isGroup isDiff once
  rw [List.append_cancel_right place] at shorter
  exact lt_irrefl _ shorter

end Fence

/-! ## Scraping -/

section

variable {diff : GitDiff} {lines after : Text}

theorem GitDiff.startsDiff_body (diff : GitDiff) : startsDiff diff.body = true := by
  obtain ⟨rest, same⟩ := diff.body_begins
  rw [startsDiff_iff, same]
  exact List.prefix_append _ _

theorem startsDiff_blockText (mark : Fence) (whole : WholeLines lines)
    (inner : Text) :
    startsDiff (lines ++ mark.blockText [] inner after) = startsDiff lines := by
  obtain ⟨tail, isTick⟩ := List.head?_eq_some_iff.mp mark.opening_head
  rw [Fence.blockText, isTick]
  exact startsDiff_fence whole _

/-- A text with more than the diff in it is not the diff. -/
theorem blockText_ne {mark : Fence} {inner : Text}
    (isBody : mark.word ++ inner = diff.body) :
    lines ++ mark.blockText [] inner after ≠ diff.body := by
  intro same
  have lengths := congrArg List.length same
  rw [← isBody] at lengths
  simp only [Fence.blockText, List.length_append, List.length_cons,
    List.length_nil] at lengths
  omega

/-- The diff in a block of its kind. -/
theorem scraped_diffBlock (diff : GitDiff) (after : Text)
    (whole : WholeLines lines) :
    let text := lines ++ Fence.diff.blockText [] diff.body after
    (startsDiff lines = false ∧ ¬ Fence.diff.HasOpening lines →
        scrapedPatch text = strip diff.body) ∧
      (OnceAt text (lines ++ (Fence.diff.opening ++ ['\n'])) diff.body →
        scrapedPatch text = diff.body →
          startsDiff lines = false ∧ ¬ Fence.diff.HasOpening lines) := by
  intro text
  have starts : startsDiff text = startsDiff lines :=
    startsDiff_blockText _ whole _
  constructor
  · rintro ⟨noDiff, noOpening⟩
    have isBody : Fence.diff.word ++ diff.body = diff.body := rfl
    obtain ⟨part, isFound, isPatch⟩ :=
      Fence.search_own after isBody whole noOpening
    rw [scrapedPatch, starts, noDiff, if_neg Bool.false_ne_true,
      diffFence_search, isFound]
    exact isPatch
  · intro once isPatch
    have noDiff : startsDiff lines = false := by
      rw [← starts, ← Bool.not_eq_true]
      intro isDiff
      rw [scrapedPatch, if_pos isDiff] at isPatch
      exact blockText_ne rfl isPatch
    refine ⟨noDiff, fun opened => ?_⟩
    obtain ⟨part, isFound, notPatch⟩ := Fence.search_not_own opened once
    rw [scrapedPatch, starts, noDiff, if_neg Bool.false_ne_true,
      diffFence_search, isFound] at isPatch
    exact notPatch isPatch

/-- Without a block of diffs, one of no kind is taken, or the lines are. -/
theorem scrapedPatch_undiffed {text : Text} (noDiff : startsDiff text = false)
    (noBlock : ¬ Fence.diff.HasBlock text) :
    scrapedPatch text =
      match Fence.plain.pattern.search text with
      | some part => groupPatch part
      | none => patchFromLines text := by
  rw [scrapedPatch, noDiff, if_neg Bool.false_ne_true, diffFence_search,
    Fence.search_eq_none noBlock]
  rfl

/-- The diff in a block of no kind. -/
theorem scraped_plainBlock (after : Text) (whole : WholeLines lines)
    {inner : Text}
    (isBody : Fence.plain.word ++ inner = diff.body) :
    let text := lines ++ Fence.plain.blockText [] inner after
    (startsDiff lines = false ∧ ¬ Fence.diff.HasBlock text ∧
          ¬ Fence.plain.HasOpening lines →
        scrapedPatch text = strip diff.body) ∧
      (OnceAt text (lines ++ (Fence.plain.opening ++ ['\n'])) diff.body →
        scrapedPatch text = diff.body →
          startsDiff lines = false ∧ ¬ Fence.diff.HasBlock text ∧
            ¬ Fence.plain.HasOpening lines) := by
  intro text
  have starts : startsDiff text = startsDiff lines :=
    startsDiff_blockText _ whole _
  constructor
  · rintro ⟨noDiff, noBlock, noOpening⟩
    obtain ⟨part, isFound, isPatch⟩ :=
      Fence.search_own after isBody whole noOpening
    rw [scrapedPatch_undiffed (starts.trans noDiff) noBlock, isFound]
    exact isPatch
  · intro once isPatch
    have noDiff : startsDiff lines = false := by
      rw [← starts, ← Bool.not_eq_true]
      intro isDiff
      rw [scrapedPatch, if_pos isDiff] at isPatch
      exact blockText_ne isBody isPatch
    have scraped := isPatch
    rw [scrapedPatch, starts, noDiff, if_neg Bool.false_ne_true,
      diffFence_search] at isPatch
    have noBlock : ¬ Fence.diff.HasBlock text := by
      intro hasBlock
      obtain ⟨part, isFound⟩ := Fence.search_of_hasBlock hasBlock
      obtain ⟨front, blanks, other, rest, blank, same, isGroup, -⟩ :=
        Fence.search_eq_some isFound
      rw [isFound] at isPatch
      have place := Fence.front_of_once blank same isGroup isPatch once
      have lasts := congrArg List.getLast? place
      rw [List.getLast?_append, List.getLast?_append] at lasts
      cases lasts
    refine ⟨noDiff, noBlock, fun opened => ?_⟩
    obtain ⟨part, isFound, notPatch⟩ := Fence.search_not_own opened once
    rw [scrapedPatch_undiffed (starts.trans noDiff) noBlock, isFound] at scraped
    exact notPatch scraped

/-- A block has a fence behind a line feed. -/
theorem body_noBlock {mark : Fence} : ¬ mark.HasBlock diff.body := by
  rintro ⟨front, blanks, other, rest, -, same⟩
  refine diff.body_noFence (front ++ (mark.opening ++ (blanks ++ '\n' ::
    (mark.word ++ other)))) ('`' :: '`' :: rest) ?_
  rw [same, Fence.blockText]
  simp

/-- A diff at the end of the text is in no block. -/
theorem noBlock_of_groupPatch {mark : Fence} {front blanks other rest : Text}
    {part : Match}
    (same : lines ++ diff.body = front ++ mark.blockText blanks other rest)
    (isGroup : part.inGroup = some (mark.word ++ other))
    (once : OnceAt (lines ++ diff.body) lines diff.body) :
    groupPatch part ≠ diff.body := by
  intro isPatch
  obtain ⟨lead, trail, -, isText⟩ := Fence.groupPatch_at same isGroup isPatch
  rw [once _ _ isText, List.append_cancel_left_eq] at isText
  have lengths := congrArg List.length isText
  simp only [List.length_append] at lengths
  have closing : "\n```".toList.length = 4 := by decide
  omega

/-- The diff behind other lines, or alone. -/
theorem scraped_lines (whole : WholeLines lines) (clean : CleanEnds diff.body) :
    let text := lines ++ diff.body
    (¬ Fence.diff.HasBlock text ∧ ¬ Fence.plain.HasBlock text ∧
          (∀ line ∈ patchLines lines, startsDiff line = false) →
        scrapedPatch text = diff.body) ∧
      (OnceAt text lines diff.body → scrapedPatch text = diff.body →
        ¬ Fence.diff.HasBlock text ∧ ¬ Fence.plain.HasBlock text ∧
          ∀ line ∈ patchLines lines, startsDiff line = false) := by
  intro text
  obtain ⟨each, noFeed, rfl⟩ := whole.exists_lines
  rw [patchLines, feedLinesFrom_lines noFeed]
  have stripped := Trace.strip_eq_self clean.1 clean.2
  have fromLines := patchFromLines_lines noFeed diff.startsDiff_body
  constructor
  · rintro ⟨noDiffBlock, noPlainBlock, noTitle⟩
    by_cases alone : each = []
    · subst alone
      exact if_pos diff.startsDiff_body
    · rw [scrapedPatch_undiffed (startsDiff_lines noFeed alone _ noTitle)
        noDiffBlock, Fence.search_eq_none noPlainBlock]
      rcases fromLines with ⟨-, isPatch⟩ | ⟨⟨line, member, isTitle⟩, -⟩
      · exact isPatch.trans stripped
      · rw [noTitle line member] at isTitle
        cases isTitle
  · intro once isPatch
    cases starts : startsDiff text with
    | true =>
        rw [scrapedPatch, if_pos starts] at isPatch
        have alone : each = [] := by
          have none := List.append_left_eq_self.mp isPatch
          cases each with
          | nil => rfl
          | cons line each =>
              rw [List.flatMap_cons, List.append_assoc] at none
              simp at none
        subst alone
        exact ⟨body_noBlock, body_noBlock, List.forall_mem_nil _⟩
    | false =>
        have scraped := isPatch
        rw [scrapedPatch, starts, if_neg Bool.false_ne_true,
          diffFence_search] at isPatch
        have noDiffBlock : ¬ Fence.diff.HasBlock text := by
          intro hasBlock
          obtain ⟨part, isFound⟩ := Fence.search_of_hasBlock hasBlock
          obtain ⟨_, _, _, _, -, same, isGroup, -⟩ :=
            Fence.search_eq_some isFound
          rw [isFound] at isPatch
          exact noBlock_of_groupPatch same isGroup once isPatch
        rw [scrapedPatch_undiffed starts noDiffBlock] at scraped
        have noPlainBlock : ¬ Fence.plain.HasBlock text := by
          intro hasBlock
          obtain ⟨part, isFound⟩ := Fence.search_of_hasBlock hasBlock
          obtain ⟨_, _, _, _, -, same, isGroup, -⟩ :=
            Fence.search_eq_some isFound
          rw [isFound] at scraped
          exact noBlock_of_groupPatch same isGroup once scraped
        rw [Fence.search_eq_none noPlainBlock] at scraped
        refine ⟨noDiffBlock, noPlainBlock, ?_⟩
        rcases fromLines with ⟨noTitle, -⟩ | ⟨-, more, notNil, isDiff, same⟩
        · exact noTitle
        · have cleanMore : CleanEnds (more ++ diff.body) := by
            obtain ⟨back, begins⟩ := startsDiff_iff.mp isDiff
            obtain ⟨rest, same⟩ := diff.body_begins
            refine ⟨?_, ?_⟩
            · rw [← begins]
              rintro char ⟨⟩
              decide
            · rw [List.getLast?_append_of_ne_nil _ (by rw [same]; rintro ⟨⟩)]
              exact clean.2
          rw [show patchFromLines text = _ from same,
            Trace.strip_eq_self cleanMore.1 cleanMore.2] at scraped
          exact absurd (List.append_left_eq_self.mp scraped) notNil

end

end AgentSchedBench.Agent
