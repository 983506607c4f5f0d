import AgentSchedBench.Gantt.StaticExport
import AgentSchedBench.Library.EscapedJson

/-!
# The bootstrap element

Up to the snapshot the page is read as it is meant, whatever the title and the
style are.  The snapshot is read again if its text does not leave the script
escaped twice; if it does, the rest of the page becomes part of the element.
-/

namespace AgentSchedBench.Gantt

open Html

variable {unicodeWord : Char → Bool}

/-! ## The title and the style -/

theorem noLess_htmlEscape (text : List Char) : '<' ∉ htmlEscape text := by
  intro member
  obtain ⟨char, -, inside⟩ := List.mem_flatMap.mp member
  split_ifs at inside with isAnd isLess isGreater isQuote isApostrophe
  · exact absurd inside (by decide)
  · exact absurd inside (by decide)
  · exact absurd inside (by decide)
  · exact absurd inside (by decide)
  · exact absurd inside (by decide)
  · exact isLess (List.mem_singleton.mp inside).symm

theorem noEndTag_title (title : List Char) :
    NoEndTag "title".toList (htmlEscape title) := by
  intro name ending _ _ inside
  exact noLess_htmlEscape title (inside.subset List.mem_cons_self)

theorem notWord_of_endsName {char : Char} (ends : endsName char = true) :
    isWordChar unicodeWord char = false := by
  simp only [endsName, isSpace, Bool.or_eq_true, decide_eq_true_iff] at ends
  rcases ends with ((((rfl | rfl) | rfl) | isFeed) | rfl) | rfl
  · rfl
  · rfl
  · rfl
  · have isChar : char = Char.ofNat 12 := Char.toNat_inj.mp isFeed
    rw [isChar]
    rfl
  · rfl
  · rfl

theorem tagFollows_name {name : List Char} {ending : Char}
    (ends : endsName ending = true) (rest : List Char) :
    tagFollows unicodeWord (name.map Char.toLower) (name ++ ending :: rest) =
      true := by
  induction name with
  | nil =>
      show (!(isWordChar unicodeWord ending)) = true
      rw [notWord_of_endsName ends]
      rfl
  | cons char name induction =>
      rw [List.map_cons, List.cons_append, tagFollows, induction, Bool.and_true,
        ignoresCase]
      simp

/-- What begins the escaped text and has no `<` in it begins the text. -/
theorem prefix_of_escapeRawText {tagName front text : List Char}
    (noLess : '<' ∉ front)
    (isFront : front <+: escapeRawTextClosingTag unicodeWord tagName text) :
    front <+: text := by
  induction front generalizing text with
  | nil => exact List.nil_prefix
  | cons char front induction =>
      rw [List.mem_cons, not_or] at noLess
      rw [escapeRawTextClosingTag.eq_def] at isFront
      split at isFront
      · split at isFront
        · exact absurd (List.cons_prefix_cons.mp isFront).1.symm noLess.1
        · exact absurd (List.cons_prefix_cons.mp isFront).1.symm noLess.1
      · obtain ⟨rfl, behind⟩ := List.cons_prefix_cons.mp isFront
        exact List.cons_prefix_cons.mpr ⟨rfl, induction noLess.2 behind⟩
      · exact absurd isFront.length_le (by simp)

/-- The end tag of the element is escaped wherever it stands. -/
theorem noEndTag_escapeRawText {tagName : List Char}
    (letters : ∀ letter ∈ tagName, letter.isAlpha = true) (text : List Char) :
    NoEndTag tagName (escapeRawTextClosingTag unicodeWord tagName text) := by
  intro name ending isName ends
  have noLess : '<' ∉ name ++ [ending] := by
    intro member
    rcases List.mem_append.mp member with member | isEnding
    · have isAlpha := alpha_of_toLower
        (letters _ (isName ▸ List.mem_map_of_mem member))
      cases isAlpha
    · rw [← List.mem_singleton.mp isEnding] at ends
      cases ends
  fun_induction escapeRawTextClosingTag unicodeWord tagName text with
  | case1 rest follows induction =>
      intro inside
      rcases List.infix_cons_iff.mp inside with first | inside
      · exact absurd (List.cons_prefix_cons.mp (List.cons_prefix_cons.mp first).2).1
          (by decide)
      rcases List.infix_cons_iff.mp inside with first | inside
      · exact absurd (List.cons_prefix_cons.mp first).1 (by decide)
      rcases List.infix_cons_iff.mp inside with first | inside
      · exact absurd (List.cons_prefix_cons.mp first).1 (by decide)
      · exact induction inside
  | case2 rest notFollows induction =>
      intro inside
      rcases List.infix_cons_iff.mp inside with first | inside
      · have named := prefix_of_escapeRawText noLess
          (List.cons_prefix_cons.mp (List.cons_prefix_cons.mp first).2).2
        obtain ⟨more, rfl⟩ := named
        refine notFollows ?_
        rw [← isName, List.append_assoc]
        exact tagFollows_name ends more
      rcases List.infix_cons_iff.mp inside with first | inside
      · exact absurd (List.cons_prefix_cons.mp first).1 (by decide)
      · exact induction inside
  | case3 char rest notClosing induction =>
      intro inside
      rcases List.infix_cons_iff.mp inside with first | inside
      · obtain ⟨isLess, first⟩ := List.cons_prefix_cons.mp first
        have slash : ['/'] <+: rest := prefix_of_escapeRawText (by decide)
          ((List.prefix_append ['/'] _).trans first)
        obtain ⟨more, rfl⟩ := slash
        exact notClosing more isLess.symm rfl
      · exact induction inside
  | case4 => exact fun inside => absurd inside.length_le (by simp)

/-! ## The page up to the snapshot -/

/-- What stands behind the bootstrap element. -/
def behindBootstrap (unicodeWord : Char → Bool) (frontend : Frontend) : List Char :=
  pageModule ++
    (escapeRawTextClosingTag unicodeWord "script".toList frontend.script ++
      (endScriptText ++ pageEnd))

theorem run_pageHead :
    (run .data pageHead).1 = .raw "title".toList .text ∧
      elementById bootstrapId (run .data pageHead).2 = none := by
  decide +kernel

theorem run_pageStyle :
    (run .data pageStyle).1 = .raw "style".toList .text ∧
      elementById bootstrapId (run .data pageStyle).2 = none := by
  decide

theorem run_pageBody :
    (run .data pageBody).1 = .data ∧
      elementById bootstrapId (run .data pageBody).2 = none := by
  decide

/-- The start tag of the bootstrap element. -/
def bootstrapScript : Tag :=
  ⟨false, "script".toList,
    [("id".toList, bootstrapId), ("type".toList, "application/json".toList)]⟩

theorem run_bootstrapText :
    run .data bootstrapText =
      (.script .data, "    ".toList.map .char ++ [.tag bootstrapScript]) := by
  decide

theorem run_pageModule :
    run .data pageModule =
      (.script .data, "\n    ".toList.map .char ++ [.tag moduleScript]) := by
  decide

/-- An element is sought behind a title or a style. -/
theorem elementById_raw {element text closing : List Char}
    (noEndTag : NoEndTag element text)
    (ends : run (.raw element .lessThan) closing =
      (.data, [.tag ⟨true, element, []⟩])) (id behind : List Char) :
    elementById id (tokensFrom (.raw element .text)
      (text ++ '<' :: (closing ++ behind))) =
        elementById id (tokensFrom .data behind) := by
  obtain ⟨shown, isRead⟩ := tokensFrom_raw noEndTag ends behind
  rw [isRead, elementById_chars, elementById_endTag]

/-- The content of the bootstrap element is what a script reads in front of
the next tag. -/
theorem elementById_page (unicodeWord : Char → Bool) (title : List Char)
    (snapshot : Json) (frontend : Frontend) :
    elementById bootstrapId
        (tokens (renderHtml unicodeWord title snapshot frontend)) =
      some (contentOf (tokensFrom (.script .data)
        (escapeClosing (JsonText.dumps snapshot) ++
          (endScriptText ++ behindBootstrap unicodeWord frontend)))) := by
  have titleEnds : run (.raw "title".toList .lessThan) "/title>".toList =
      (.data, [.tag ⟨true, "title".toList, []⟩]) := by decide
  have styleEnds : run (.raw "style".toList .lessThan) "/style>".toList =
      (.data, [.tag ⟨true, "style".toList, []⟩]) := by decide
  have noEndTag : NoEndTag "style".toList
      (escapeRawTextClosingTag unicodeWord "style".toList frontend.style) :=
    noEndTag_escapeRawText (List.all_eq_true.mp (by decide)) frontend.style
  rw [renderHtml_eq, tokens, tokensFrom_append, run_pageHead.1,
    elementById_append run_pageHead.2]
  show elementById _ (tokensFrom _ (htmlEscape title ++
    '<' :: ("/title>".toList ++ _))) = _
  rw [elementById_raw (noEndTag_title title) titleEnds, tokensFrom_append,
    run_pageStyle.1, elementById_append run_pageStyle.2]
  show elementById _ (tokensFrom _
    (escapeRawTextClosingTag unicodeWord "style".toList frontend.style ++
      '<' :: ("/style>".toList ++ _))) = _
  rw [elementById_raw noEndTag styleEnds, tokensFrom_append, run_pageBody.1,
    elementById_append run_pageBody.2, tokensFrom_append, run_bootstrapText,
    List.append_assoc, elementById_chars, List.singleton_append, elementById,
    if_pos (by decide)]
  rfl

/-! ## The snapshot -/

theorem mem_escapeClosing {char : Char} {text : List Char}
    (member : char ∈ escapeClosing text) : char = '\\' ∨ char ∈ text := by
  fun_induction escapeClosing text with
  | case1 rest induction =>
      rcases List.mem_cons.mp member with rfl | member
      · exact .inr List.mem_cons_self
      rcases List.mem_cons.mp member with rfl | member
      · exact .inl rfl
      rcases List.mem_cons.mp member with rfl | member
      · exact .inr (List.mem_cons_of_mem _ List.mem_cons_self)
      · exact (induction member).imp_right fun inside =>
          List.mem_cons_of_mem _ (List.mem_cons_of_mem _ inside)
  | case2 first rest _ induction =>
      rcases List.mem_cons.mp member with rfl | member
      · exact .inr List.mem_cons_self
      · exact (induction member).imp_right (List.mem_cons_of_mem _)
  | case3 => exact absurd member List.not_mem_nil

/-- No character of the text of a snapshot is replaced. -/
theorem shown_snapshot {snapshot : Json}
    (wellFormed : JsonText.WellFormed snapshot) :
    (escapeClosing (JsonText.dumps snapshot)).map shownChar =
      escapeClosing (JsonText.dumps snapshot) := by
  refine (List.map_congr_left fun char member => ?_).trans (List.map_id _)
  rw [shownChar, if_neg]
  · rfl
  · intro isZero
    have isChar : char = Char.ofNat 0 := Char.toNat_inj.mp isZero
    rw [isChar] at member
    rcases mem_escapeClosing member with isBackslash | member
    · cases isBackslash
    · have control :=
        ((JsonText.shows_dumps snapshot wellFormed _ (by decide)).mp member).2
      exact absurd control (by decide)

/-- What is behind the bootstrap element becomes part of it. -/
theorem not_survives {title : List Char} {frontend : Frontend} {snapshot : Json}
    (wellFormed : JsonText.WellFormed snapshot)
    (twice : DoubleEscapes (JsonText.dumps snapshot)) :
    ¬ SnapshotSurvives snapshot
      (renderHtml unicodeWord title snapshot frontend) := by
  rintro ⟨content, later, isElement, isSnapshot⟩
  rw [elementById_page, Option.some_inj] at isElement
  obtain ⟨more, isContent⟩ := script_goes_on twice (shown_snapshot wellFormed)
    (behindBootstrap unicodeWord frontend)
  rw [isElement] at isContent
  dsimp only at isContent
  have notRead : JsonText.loads (escapeClosing (JsonText.dumps snapshot) ++
      '<' :: ("/script>".toList ++ more)) = none :=
    JsonText.writer_escapeClosing.not_loads wellFormed (by decide) (by decide) _
  rw [isContent] at isSnapshot
  exact absurd (notRead.symm.trans isSnapshot) nofun

/-- The snapshot is read again, and the next element is read as one, unless the
text of the snapshot opens a comment that it does not close and names a script
in it. -/
theorem snapshot_survives_iff (unicodeWord : Char → Bool) (title : List Char)
    (frontend : Frontend) {snapshot : Json}
    (wellFormed : JsonText.WellFormed snapshot) :
    SnapshotSurvives snapshot
        (renderHtml unicodeWord title snapshot frontend) ↔
      ¬ DoubleEscapes (JsonText.dumps snapshot) := by
  refine ⟨fun survives twice => not_survives wellFormed twice survives,
    fun notTwice => ?_⟩
  refine ⟨escapeClosing (JsonText.dumps snapshot), tokensFrom (.script .data)
    (escapeRawTextClosingTag unicodeWord "script".toList frontend.script ++
      (endScriptText ++ pageEnd)), ?_,
    JsonText.writer_escapeClosing.loads wellFormed⟩
  rw [elementById_page, script_ends notTwice (shown_snapshot wellFormed),
    contentOf_chars, behindBootstrap, tokensFrom_append, run_pageModule,
    List.append_assoc, List.singleton_append]

/-- A snapshot with one text in it. -/
def noteSnapshot (note : String) : Json := .obj [("note", .str note)]

theorem noteSnapshot_wellFormed (note : String) :
    JsonText.WellFormed (noteSnapshot note) := by
  simp [noteSnapshot, JsonText.WellFormed, JsonText.WellFormedFields]

theorem closingTag_survives :
    SnapshotSurvives (noteSnapshot "a < b </script>")
      (renderHtml (fun _ => false) "t".toList
        (noteSnapshot "a < b </script>") ⟨[], []⟩) := by
  refine (snapshot_survives_iff _ _ _ (noteSnapshot_wellFormed _)).mpr ?_
  rintro ⟨front, rest, isText, -⟩
  have inside : ['<', '!', '-', '-'] <:+:
      JsonText.dumps (noteSnapshot "a < b </script>") :=
    ⟨front, rest, isText.symm⟩
  revert inside
  decide

theorem scriptInComment_not_survives :
    ¬ SnapshotSurvives (noteSnapshot "<!--<script>")
      (renderHtml (fun _ => false) "t".toList
        (noteSnapshot "<!--<script>") ⟨[], []⟩) := by
  refine not_survives (noteSnapshot_wellFormed _)
    ⟨"\x7b\"note\": \"".toList, "<script>\"\x7d".toList, by decide, ?_,
      "<script>".toList, ⟨"script".toList, '>', by decide, by decide, by decide⟩, ?_⟩
  · rw [CommentGoesOn]
    decide
  · decide

end AgentSchedBench.Gantt
