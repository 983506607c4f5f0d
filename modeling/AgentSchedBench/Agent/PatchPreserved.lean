import AgentSchedBench.Agent.ScrapedPatch

/-!
# Preserved diffs

A diff has the same lines after its extraction if its last line does not end
in a blank and, where it comes through a pipe or from a file, it has no
carriage return.  In a reply nothing before the diff may be taken for it.
-/

namespace AgentSchedBench.Agent

open Trace (Text strip)
open TextLines

/-! ## Sources -/

/-- How a reply has the diff in it. -/
inductive Embedding where
  | behindLines (before : Text)
  | diffBlock (before after : Text)
  | plainBlock (before after : Text)

namespace Embedding

def before : Embedding → Text
  | behindLines before | diffBlock before _ | plainBlock before _ => before

/-- The fence before the diff, if there is one. -/
def opening : Embedding → Text
  | behindLines _ => []
  | diffBlock _ _ => Fence.diff.opening ++ ['\n']
  | plainBlock _ _ => Fence.plain.opening ++ ['\n']

def back : Embedding → Text
  | behindLines _ => []
  | diffBlock _ after | plainBlock _ after => "```".toList ++ after

def content (embedding : Embedding) (diff : GitDiff) : Text :=
  embedding.before ++ (embedding.opening ++ (diff.text ++ embedding.back))

/-- What is left of the lines before the diff. -/
def lead (embedding : Embedding) : Text := embedding.before.dropWhile isSpace

/-- Nothing is taken for the diff before it. -/
def Clear (diff : GitDiff) (embedding : Embedding) : Prop :=
  let text := strip (embedding.content diff)
  match embedding with
  | behindLines _ =>
      ¬ Fence.diff.HasBlock text ∧ ¬ Fence.plain.HasBlock text ∧
        ∀ line ∈ patchLines embedding.lead, startsDiff line = false
  | diffBlock _ _ =>
      startsDiff embedding.lead = false ∧
        ¬ Fence.diff.HasOpening embedding.lead
  | plainBlock _ _ =>
      startsDiff embedding.lead = false ∧ ¬ Fence.diff.HasBlock text ∧
        ¬ Fence.plain.HasOpening embedding.lead

end Embedding

/-- Where a patch is taken from, with what else is found there. -/
inductive Source where
  | submission (byRun : Bool) (config add diffEnd : RunEnd) (result : EvalResult)
  | container (given : Submission) (config add : RunEnd) (result : EvalResult)
  | workspace (add : RunEnd) (result : EvalResult)
  | content (embedding : Embedding) (result : EvalResult)

namespace RunEnd

/-- A command that does not raise. -/
def IsCompleted : RunEnd → Prop
  | completed _ _ => True
  | raised _ => False

/-- An end of `git add` that is passed over. -/
def IsStaged : RunEnd → Prop
  | completed _ _ => True
  | raised error => error = .timeoutExpired

end RunEnd

namespace Source

/-- Nothing comes before this source, and no other command fails. -/
def Reached : Source → Prop
  | submission _ _ _ _ _ => True
  | container given config add _ =>
      readSubmittedPatch given = .ok [] ∧ config.IsCompleted ∧ add.IsStaged
  | workspace add result =>
      result.containerModelPatch.bind orNone = none ∧ add.IsStaged
  | content embedding result =>
      result.containerModelPatch.bind orNone = none ∧
        extractPatchFromWorkspace result.workspace = .ok [] ∧
          WholeLines embedding.before

/-- The patch of the run, when the diff is in this source. -/
def modelPatch (diff : GitDiff) : Source → Except RunError Text
  | submission byRun config add diffEnd result =>
      let given : Submission :=
        if byRun then .byRun (.completed 0 diff.text)
        else .byPath (some diff.text)
      (extractContainerPatch given config add diffEnd).bind fun patch =>
        { result with containerModelPatch := patch }.modelPatch
  | container given config add result =>
      (extractContainerPatch given config add
        (.completed 0 diff.text)).bind fun patch =>
        { result with containerModelPatch := patch }.modelPatch
  | workspace add result =>
      { result with workspace := some ⟨add, .completed 0 diff.text⟩ }.modelPatch
  | content embedding result =>
      { result with content := some (embedding.content diff) }.modelPatch

/-- The patch has the lines of the diff. -/
def KeepsDiff (diff : GitDiff) (source : Source) : Prop :=
  ∃ patch, source.modelPatch diff = .ok patch ∧ patchLines patch = diff.lines

/-- The diff is not changed on its way. -/
def Plain (diff : GitDiff) : Source → Prop
  | content embedding _ => diff.EndsInText ∧ embedding.Clear diff
  | submission _ _ _ _ _ | container _ _ _ _ | workspace _ _ =>
      diff.EndsInText ∧ '\r' ∉ diff.text

/-- The reply does not have the same diff in another place. -/
def Once (diff : GitDiff) : Source → Prop
  | content embedding _ =>
      OnceAt (embedding.content diff) (embedding.before ++ embedding.opening)
        diff.body
  | submission _ _ _ _ _ | container _ _ _ _ | workspace _ _ => True

end Source

/-! ## Pipes -/

namespace GitDiff

variable {diff : GitDiff}

theorem body_ne_nil : diff.body ≠ [] := by
  obtain ⟨rest, same⟩ := diff.body_begins
  rw [same]
  nofun

theorem EndsInText.clean (ends : diff.EndsInText) : CleanEnds diff.body := by
  refine ⟨?_, ends⟩
  obtain ⟨rest, same⟩ := diff.body_begins
  rw [same]
  rintro char ⟨⟩
  decide

/-- A pipe translates the newlines of the lines. -/
theorem translate_begins (diff : GitDiff) :
    ∃ rest, translateNewlines diff.text = "diff --git".toList ++ rest := by
  obtain ⟨rest, same⟩ := diff.body_begins
  rw [diff.text_eq, same, List.append_assoc,
    translateNewlines_plain_append (by decide)]
  exact ⟨_, rfl⟩

/-- What comes through a pipe and is stripped. -/
def piped (diff : GitDiff) : Text := strip (translateNewlines diff.text)

theorem piped_ne_nil : diff.piped ≠ [] := by
  obtain ⟨rest, same⟩ := diff.translate_begins
  intro isNil
  have plain : ¬ isSpace 'd' = true := by decide
  rw [piped, same, strip, List.reverse_eq_nil_iff,
    List.dropWhile_eq_nil_iff] at isNil
  refine plain (isNil 'd' ?_)
  rw [List.mem_reverse, show "diff --git".toList ++ rest =
    'd' :: ("iff --git".toList ++ rest) from rfl,
    List.dropWhile_cons_of_neg plain]
  exact List.mem_cons_self

theorem submittedPatch_translate :
    submittedPatch (translateNewlines diff.text) = diff.piped := by
  obtain ⟨rest, same⟩ := diff.translate_begins
  have begins : startsDiff ((translateNewlines diff.text).dropWhile isSpace) =
      true := by
    rw [same, startsDiff_iff]
    exact List.prefix_append _ _
  rw [submittedPatch, if_pos begins, piped]

theorem piped_eq_body_iff :
    diff.piped = diff.body ↔ diff.EndsInText ∧ '\r' ∉ diff.text := by
  constructor
  · intro same
    refine ⟨?_, ?_⟩
    · rw [EndsInText, ← same]
      exact (cleanEnds_strip _).2
    · rw [diff.text_eq, List.mem_append, not_or]
      refine ⟨fun member => ?_, by decide⟩
      rw [← same, piped] at member
      obtain ⟨lead, trail, -, -, isText⟩ :=
        strip_split_both (translateNewlines diff.text)
      refine return_not_mem_translateNewlines diff.text ?_
      rw [isText]
      exact List.mem_append_right _ (List.mem_append_left _ member)
  · rintro ⟨ends, noReturn⟩
    have same := translateNewlines_plain_append noReturn []
    rw [List.append_nil] at same
    rw [piped, same, translateNewlines, List.append_nil, diff.text_eq]
    refine strip_clean ends.clean ?_
    rintro char member
    cases List.mem_singleton.mp member
    rfl

end GitDiff

/-! ## Patches of the sources -/

theorem orNone_of_ne_nil {text : Text} (notNil : text ≠ []) :
    orNone text = some text := if_neg notNil

theorem EvalResult.modelPatch_container (result : EvalResult) {patch : Text}
    (notNil : patch ≠ []) :
    { result with containerModelPatch := some patch }.modelPatch = .ok patch := by
  rw [modelPatch, Option.bind_some, orNone_of_ne_nil notNil]

theorem gitDiffExcluding_staged {add : RunEnd} (staged : add.IsStaged)
    (printed : Text) :
    gitDiffExcluding add (.completed 0 printed) =
      .ok (0, translateNewlines printed) := by
  cases add with
  | completed _ _ => rfl
  | raised error =>
      cases staged
      rfl

/-- Without a submitted patch the diff is printed. -/
theorem extractContainerPatch_printed {given : Submission} {config add : RunEnd}
    (noPatch : readSubmittedPatch given = .ok []) (completed : config.IsCompleted)
    (staged : add.IsStaged) (printed : Text) :
    extractContainerPatch given config add (.completed 0 printed) =
      .ok (orNone (strip (translateNewlines printed))) := by
  show (readSubmittedPatch given).bind _ = _
  rw [noPatch, Except.bind, if_neg (by simp)]
  cases config with
  | raised error => exact completed.elim
  | completed _ _ =>
      rw [gitDiffExcluding_staged staged]
      rfl

namespace Source

variable {diff : GitDiff}

theorem modelPatch_submission (byRun : Bool) (config add diffEnd : RunEnd)
    (result : EvalResult) :
    (submission byRun config add diffEnd result).modelPatch diff =
      .ok diff.piped := by
  have isRead : readSubmittedPatch
      (if byRun then .byRun (.completed 0 diff.text)
        else .byPath (some diff.text)) = .ok diff.piped := by
    cases byRun
    · exact congrArg Except.ok GitDiff.submittedPatch_translate
    · exact congrArg Except.ok GitDiff.submittedPatch_translate
  show ((readSubmittedPatch _).bind _).bind _ = _
  rw [isRead, Except.bind, if_pos GitDiff.piped_ne_nil]
  exact result.modelPatch_container GitDiff.piped_ne_nil

theorem modelPatch_container {given : Submission} {config add : RunEnd}
    {result : EvalResult} (reached : (container given config add result).Reached) :
    (container given config add result).modelPatch diff = .ok diff.piped := by
  obtain ⟨noPatch, completed, staged⟩ := reached
  show (extractContainerPatch given config add _).bind _ = _
  rw [extractContainerPatch_printed noPatch completed staged, ← GitDiff.piped,
    orNone_of_ne_nil GitDiff.piped_ne_nil]
  exact result.modelPatch_container GitDiff.piped_ne_nil

theorem modelPatch_workspace {add : RunEnd} {result : EvalResult}
    (reached : (workspace add result).Reached) :
    (workspace add result).modelPatch diff = .ok diff.piped := by
  obtain ⟨noPatch, staged⟩ := reached
  show EvalResult.modelPatch { result with workspace := _ } = _
  rw [EvalResult.modelPatch, noPatch]
  show (extractPatchFromWorkspace (some ⟨add, _⟩)).map _ = _
  rw [extractPatchFromWorkspace, gitDiffExcluding_staged staged, Except.map,
    Except.map, if_pos rfl, ← GitDiff.piped, if_pos GitDiff.piped_ne_nil]

theorem modelPatch_content {embedding : Embedding} {result : EvalResult}
    (reached : (content embedding result).Reached) :
    (content embedding result).modelPatch diff =
      .ok (scrapedPatch (strip (embedding.content diff))) := by
  obtain ⟨noPatch, noDiff, -⟩ := reached
  show EvalResult.modelPatch { result with content := _ } = _
  rw [EvalResult.modelPatch, noPatch]
  show (extractPatchFromWorkspace result.workspace).map _ = _
  rw [noDiff, Except.map, if_neg (by simp), extractPatchFromContent]

/-- A source keeps the diff if its patch is the diff. -/
theorem keepsDiff_iff_eq {source : Source} {patch : Text}
    (isPatch : source.modelPatch diff = .ok patch)
    (plainEnd : ∀ char ∈ patch.getLast?, isSpace char = false) :
    source.KeepsDiff diff ↔ patch = diff.body := by
  rw [KeepsDiff, isPatch, ← patchLines_eq_iff plainEnd]
  constructor
  · rintro ⟨other, same, isDiff⟩
    cases same
    exact isDiff
  · exact fun isDiff => ⟨patch, rfl, isDiff⟩

end Source

/-- What is scraped from a stripped text does not end in a blank. -/
theorem scrapedPatch_end (content : Text) :
    ∀ char ∈ (scrapedPatch (strip content)).getLast?, isSpace char = false := by
  have ofGroup (part : Patterns.Match) :
      ∀ char ∈ (groupPatch part).getLast?, isSpace char = false :=
    (cleanEnds_strip _).2
  have ofLines (text : Text) :
      ∀ char ∈ (patchFromLines text).getLast?, isSpace char = false := by
    rw [patchFromLines]
    split
    · rintro _ ⟨⟩
    · exact (cleanEnds_strip _).2
  unfold scrapedPatch
  split
  · exact (cleanEnds_strip _).2
  · split
    · exact ofGroup _
    · split
      · exact ofGroup _
      · exact ofLines _

/-! ## Replies -/

theorem OnceAt.within {blanks text trail front diff : Text}
    (once : OnceAt (blanks ++ (text ++ trail)) (blanks ++ front) diff) :
    OnceAt text front diff := by
  intro start back same
  refine List.append_cancel_left (once (blanks ++ start) (back ++ trail) ?_)
  rw [same]
  simp

theorem exists_kept (text : Text) :
    ∃ kept trail, Blank trail ∧ text = kept ++ trail ∧
      ∀ char ∈ kept.getLast?, isSpace char = false := by
  refine ⟨(text.reverse.dropWhile isSpace).reverse,
    (text.reverse.takeWhile isSpace).reverse, ?_, ?_, ?_⟩
  · intro char member
    exact List.mem_takeWhile_imp (List.mem_reverse.mp member)
  · rw [← List.reverse_append, List.takeWhile_append_dropWhile,
      List.reverse_reverse]
  · intro char isLast
    rw [List.getLast?_reverse] at isLast
    exact dropWhile_head _ char isLast

theorem Fence.blockText_clean (mark : Fence) (inner : Text) {kept : Text}
    (plainEnd : ∀ char ∈ kept.getLast?, isSpace char = false) :
    CleanEnds (mark.blockText [] inner kept) := by
  constructor
  · rw [blockText, List.head?_append, mark.opening_head]
    rintro char ⟨⟩
    decide
  · intro char isLast
    cases isKept : kept.getLast? with
    | none =>
        rw [List.getLast?_eq_none_iff.mp isKept] at isLast
        simp only [blockText, List.getLast?_append, List.getLast?_cons] at isLast
        cases isLast
        exact (rfl : isSpace '`' = false)
    | some last =>
        simp only [blockText, List.getLast?_append, List.getLast?_cons,
          isKept] at isLast
        cases isLast
        exact plainEnd last isKept

theorem Fence.blockText_ne_nil (mark : Fence) (inner kept : Text) :
    mark.blockText [] inner kept ≠ [] := by
  simp [blockText]

namespace Embedding

variable {diff : GitDiff}

theorem wholeLines_lead {embedding : Embedding}
    (whole : WholeLines embedding.before) : WholeLines embedding.lead := by
  rw [← List.takeWhile_append_dropWhile (p := isSpace)
    (l := embedding.before)] at whole
  exact wholeLines_right whole

/-- The lines and the diff that a stripped reply consists of. -/
theorem strip_behindLines (ends : diff.EndsInText) (before : Text) :
    let embedding := behindLines before
    strip (embedding.content diff) = embedding.lead ++ diff.body := by
  intro embedding
  have isContent : embedding.content diff =
      before ++ (diff.body ++ ['\n']) := by
    show before ++ ([] ++ (diff.text ++ [])) = _
    rw [List.nil_append, List.append_nil, diff.text_eq]
  rw [isContent, strip_around GitDiff.body_ne_nil ends.clean]
  · rfl
  · rintro char member
    cases List.mem_singleton.mp member
    rfl

/-- The lines and the block that a stripped reply consists of. -/
theorem strip_block (mark : Fence) (before inner after : Text) :
    ∃ kept trail, strip (before ++ (mark.blockText [] inner after)) =
        before.dropWhile isSpace ++ mark.blockText [] inner kept ∧
      before ++ mark.blockText [] inner after =
        before.takeWhile isSpace ++ (before.dropWhile isSpace ++
          mark.blockText [] inner kept ++ trail) := by
  obtain ⟨kept, trail, blank, rfl, plainEnd⟩ := exists_kept after
  have isBlock : mark.blockText [] inner (kept ++ trail) =
      mark.blockText [] inner kept ++ trail := by
    simp [Fence.blockText]
  refine ⟨kept, trail, ?_, ?_⟩
  · rw [isBlock, strip_around (mark.blockText_ne_nil _ _)
      (mark.blockText_clean inner plainEnd) blank]
  · rw [isBlock, List.append_assoc (before.dropWhile isSpace),
      ← List.append_assoc (before.takeWhile isSpace),
      List.takeWhile_append_dropWhile]

theorem front_eq (embedding : Embedding) :
    embedding.before ++ embedding.opening =
      embedding.before.takeWhile isSpace ++
        (embedding.lead ++ embedding.opening) := by
  rw [← List.append_assoc, lead, List.takeWhile_append_dropWhile]

/-- The patch of a reply is the diff if nothing is taken for it; the condition
is exact for a reply with one such diff. -/
theorem scraped_iff {embedding : Embedding} (whole : WholeLines embedding.before)
    (ends : diff.EndsInText) :
    let patch := scrapedPatch (strip (embedding.content diff))
    (embedding.Clear diff → patch = diff.body) ∧
      (OnceAt (embedding.content diff) (embedding.before ++ embedding.opening)
          diff.body →
        patch = diff.body → embedding.Clear diff) := by
  have wholeLead := wholeLines_lead whole
  have stripped := Trace.strip_eq_self ends.clean.1 ends.clean.2
  intro patch
  cases embedding with
  | behindLines before =>
      have isText := strip_behindLines ends before
      have scraped := scraped_lines wholeLead ends.clean
      rw [show patch = _ from congrArg scrapedPatch isText, Clear, isText]
      refine ⟨scraped.1, fun once => scraped.2 ?_⟩
      have isContent : (behindLines before).content diff =
          before.takeWhile isSpace ++
            ((behindLines before).lead ++ diff.body ++ ['\n']) := by
        show before ++ ([] ++ (diff.text ++ [])) = _
        rw [List.nil_append, List.append_nil, diff.text_eq,
          List.append_assoc (lead _), ← List.append_assoc (before.takeWhile _)]
        exact congrArg (· ++ _) List.takeWhile_append_dropWhile.symm
      rw [isContent, front_eq, show (behindLines before).opening = [] from rfl,
        List.append_nil] at once
      exact once.within
  | diffBlock before after =>
      have isContent : (diffBlock before after).content diff =
          before ++ Fence.diff.blockText [] diff.body after := by
        simp [content, Embedding.before, opening, back, Fence.blockText,
          diff.text_eq, show Fence.diff.word = [] from rfl]
      obtain ⟨kept, trail, isText, within⟩ :=
        strip_block Fence.diff before diff.body after
      have scraped := scraped_diffBlock diff kept wholeLead
      rw [← isContent] at isText within
      rw [show patch = _ from congrArg scrapedPatch isText, Clear]
      refine ⟨fun clear => (scraped.1 clear).trans stripped, fun once =>
        scraped.2 ?_⟩
      rw [within, front_eq] at once
      exact once.within
  | plainBlock before after =>
      obtain ⟨inner, isBody⟩ := diff.body_begins
      have isContent : (plainBlock before after).content diff =
          before ++ Fence.plain.blockText [] inner after := by
        simp [content, Embedding.before, opening, back, Fence.blockText,
          diff.text_eq, isBody]
        rfl
      obtain ⟨kept, trail, isText, within⟩ :=
        strip_block Fence.plain before inner after
      have scraped := scraped_plainBlock kept wholeLead isBody.symm
      rw [← isContent] at isText within
      rw [show patch = _ from congrArg scrapedPatch isText, Clear, isText]
      refine ⟨fun clear => (scraped.1 clear).trans stripped, fun once =>
        scraped.2 ?_⟩
      rw [within, front_eq] at once
      exact once.within

end Embedding

/-! ## Preservation -/

/-- The patch of a run has the lines of the diff if the diff is not changed on
its way to it, and only then if the diff is in one place. -/
theorem patch_keepsDiff_iff (diff : GitDiff) (source : Source)
    (reached : source.Reached) :
    (source.Plain diff → source.KeepsDiff diff) ∧
      (source.Once diff → source.KeepsDiff diff → source.Plain diff) := by
  have piped (isPatch : source.modelPatch diff = .ok diff.piped) :
      source.KeepsDiff diff ↔ diff.EndsInText ∧ '\r' ∉ diff.text := by
    rw [Source.keepsDiff_iff_eq isPatch (cleanEnds_strip _).2,
      GitDiff.piped_eq_body_iff]
  cases source with
  | submission byRun config add diffEnd result =>
      have same := piped (Source.modelPatch_submission ..)
      exact ⟨same.mpr, fun _ => same.mp⟩
  | container given config add result =>
      have same := piped (Source.modelPatch_container reached)
      exact ⟨same.mpr, fun _ => same.mp⟩
  | workspace add result =>
      have same := piped (Source.modelPatch_workspace reached)
      exact ⟨same.mpr, fun _ => same.mp⟩
  | content embedding result =>
      have isPatch : (Source.content embedding result).modelPatch diff = _ :=
        Source.modelPatch_content reached
      rw [Source.keepsDiff_iff_eq isPatch (scrapedPatch_end _)]
      constructor
      · rintro ⟨ends, clear⟩
        exact (Embedding.scraped_iff reached.2.2 ends).1 clear
      · intro once isBody
        have ends : diff.EndsInText := by
          rw [GitDiff.EndsInText, ← isBody]
          exact scrapedPatch_end _
        exact ⟨ends, (Embedding.scraped_iff reached.2.2 ends).2 once isBody⟩

theorem isHunkLine_cons {mark : Char} (isMark : mark ∈ [' ', '+', '-', '\\'])
    (rest : Text) : IsHunkLine (mark :: rest) :=
  Or.inr ⟨mark, isMark, rfl⟩

/-- The diff of one line of one file, with a line behind the new one. -/
def changedLine (last : Text) (begins : IsHunkLine last) (oneLine : '\n' ∉ last) :
    GitDiff where
  files := [{
    title := "diff --git a/notes b/notes".toList
    headers := ["--- a/notes".toList, "+++ b/notes".toList]
    hunks := [{
      header := "@@ -1,2 +1,2 @@".toList
      body := ["-old".toList, "+new".toList, last]
      header_begins := by decide
      body_begins := by
        simp only [List.forall_mem_cons]
        exact ⟨isHunkLine_cons (by decide) _, isHunkLine_cons (by decide) _,
          begins, nofun⟩
      oneLine := by
        simp only [List.forall_mem_cons]
        exact ⟨by decide, by decide, by decide, oneLine, nofun⟩ }]
    title_begins := by decide
    headers_begin := by decide
    oneLine := by decide }]
  nonempty := List.cons_ne_nil _ _

/-- A run in a container, in which the agent has submitted nothing. -/
def containerSource : Source :=
  .container (.byPath none) (.completed 0 []) (.completed 0 [])
    ⟨none, none, none⟩

theorem containerSource_reached : containerSource.Reached :=
  ⟨rfl, trivial, trivial⟩

/-- A diff that ends in a text is kept. -/
theorem textLine_kept :
    containerSource.KeepsDiff
      (changedLine " same".toList (isHunkLine_cons (by decide) _) (by decide)) :=
  (patch_keepsDiff_iff _ _ containerSource_reached).1
    ⟨fun char isLast => by cases isLast; decide, by decide⟩

/-- An empty context line at the end of the diff is lost. -/
theorem blankLine_lost :
    ¬ ∀ (diff : GitDiff) (source : Source),
      source.Reached → source.KeepsDiff diff := by
  intro always
  let diff := changedLine [' '] (isHunkLine_cons (by decide) _) (by decide)
  have kept := always diff _ containerSource_reached
  have isPatch : containerSource.modelPatch diff = .ok diff.piped :=
    Source.modelPatch_container containerSource_reached
  rw [Source.keepsDiff_iff_eq isPatch (cleanEnds_strip _).2,
    GitDiff.piped_eq_body_iff] at kept
  have ends := kept.1 ' ' (by decide)
  cases ends

end AgentSchedBench.Agent
