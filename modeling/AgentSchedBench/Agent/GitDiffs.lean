import AgentSchedBench.Agent.FencedBlocks

/-!
# Diffs

What git prints for changed files: the title and the headers of each file, and
its hunks.  A patch has the lines of a diff, whether or not a line feed stands
behind its last line.
-/

namespace AgentSchedBench.Agent

open Trace (Text strip intercalate_lines)
open TextLines

/-- A marked line of a file; git can be told to print an empty context line
without its mark. -/
def IsHunkLine (line : Text) : Prop :=
  line = [] ∨ ∃ mark ∈ [' ', '+', '-', '\\'], line.head? = some mark

structure Hunk where
  header : Text
  body : List Text
  header_begins : "@@ ".toList <+: header
  body_begins : ∀ line ∈ body, IsHunkLine line
  oneLine : ∀ line ∈ header :: body, '\n' ∉ line

/-- How the headers of a file begin. -/
def headerWords : List String :=
  ["old mode ", "new mode ", "deleted file mode ", "new file mode ",
    "copy from ", "copy to ", "rename from ", "rename to ",
    "similarity index ", "dissimilarity index ", "index ", "--- ", "+++ ",
    "Binary files "]

structure FileDiff where
  title : Text
  headers : List Text
  hunks : List Hunk
  title_begins : "diff --git ".toList <+: title
  headers_begin : ∀ line ∈ headers, ∃ word ∈ headerWords, word.toList <+: line
  oneLine : ∀ line ∈ title :: headers, '\n' ∉ line

structure GitDiff where
  files : List FileDiff
  nonempty : files ≠ []

def Hunk.lines (hunk : Hunk) : List Text := hunk.header :: hunk.body

def FileDiff.lines (file : FileDiff) : List Text :=
  file.title :: (file.headers ++ file.hunks.flatMap Hunk.lines)

namespace GitDiff

def lines (diff : GitDiff) : List Text := diff.files.flatMap FileDiff.lines

/-- What git prints. -/
def text (diff : GitDiff) : Text := diff.lines.flatMap fun line => line ++ ['\n']

/-- The text without the line feed behind the last line. -/
def body (diff : GitDiff) : Text := ['\n'].intercalate diff.lines

/-- The last line of the diff does not end in a blank. -/
def EndsInText (diff : GitDiff) : Prop :=
  ∀ char ∈ diff.body.getLast?, isSpace char = false

end GitDiff

/-! ## Lines -/

/-- No line of a hunk can be taken for a fence. -/
theorem Hunk.line_head (hunk : Hunk) :
    ∀ line ∈ hunk.lines, line.head? ≠ some '`' := by
  rw [Hunk.lines, List.forall_mem_cons]
  constructor
  · obtain ⟨rest, same⟩ := hunk.header_begins
    rw [← same]
    nofun
  · intro line member isTick
    rcases hunk.body_begins line member with rfl | ⟨mark, isMark, isHead⟩
    · cases isTick
    · rw [isHead] at isTick
      cases isTick
      exact absurd isMark (by decide)

theorem FileDiff.line_head (file : FileDiff) :
    ∀ line ∈ file.lines, line.head? ≠ some '`' := by
  rw [FileDiff.lines, List.forall_mem_cons]
  constructor
  · obtain ⟨rest, same⟩ := file.title_begins
    rw [← same]
    nofun
  · intro line member
    rcases List.mem_append.mp member with member | member
    · obtain ⟨word, isWord, rest, rfl⟩ := file.headers_begin line member
      have wordHead : ∀ word ∈ headerWords,
          word.toList.head?.any (· != '`') = true := by decide
      intro isTick
      have notTick := wordHead word isWord
      cases isHead : word.toList.head? with
      | none =>
          rw [isHead] at notTick
          cases notTick
      | some char =>
          rw [List.head?_append, isHead] at isTick
          cases isTick
          rw [isHead] at notTick
          cases notTick
    · obtain ⟨hunk, -, member⟩ := List.mem_flatMap.mp member
      exact hunk.line_head line member

theorem FileDiff.line_noFeed (file : FileDiff) :
    ∀ line ∈ file.lines, '\n' ∉ line := by
  intro line member
  rw [FileDiff.lines, ← List.cons_append, List.mem_append,
    List.mem_flatMap] at member
  rcases member with member | ⟨hunk, -, member⟩
  · exact file.oneLine line member
  · exact hunk.oneLine line member

namespace GitDiff

variable (diff : GitDiff)

theorem line_head : ∀ line ∈ diff.lines, line.head? ≠ some '`' := by
  intro line member
  obtain ⟨file, -, member⟩ := List.mem_flatMap.mp member
  exact file.line_head line member

theorem line_noFeed : ∀ line ∈ diff.lines, '\n' ∉ line := by
  intro line member
  obtain ⟨file, -, member⟩ := List.mem_flatMap.mp member
  exact file.line_noFeed line member

theorem lines_eq_cons : ∃ title rest,
    diff.lines = title :: rest ∧ "diff --git ".toList <+: title := by
  obtain ⟨file, files, same⟩ := List.exists_cons_of_ne_nil diff.nonempty
  rw [lines, same, List.flatMap_cons]
  exact ⟨file.title, _, rfl, file.title_begins⟩

theorem text_eq : diff.text = diff.body ++ ['\n'] := by
  obtain ⟨title, rest, same, -⟩ := diff.lines_eq_cons
  rw [body, text, same]
  exact (intercalate_lines title rest).symm

/-- The text begins like each diff. -/
theorem body_begins : ∃ rest, diff.body = "diff --git".toList ++ rest := by
  obtain ⟨title, rest, same, more, rfl⟩ := diff.lines_eq_cons
  rw [body, same]
  cases rest with
  | nil => exact ⟨_, by rw [List.intercalate_singleton]; rfl⟩
  | cons next rest =>
      exact ⟨_, by rw [List.intercalate_cons_cons]; rfl⟩

end GitDiff

/-- A line feed ends the first line or is in the lines behind it. -/
theorem feed_in_lines {line rest front back : Text} (noFeed : '\n' ∉ line)
    (same : front ++ '\n' :: back = line ++ '\n' :: rest) :
    front = line ∧ back = rest ∨
      ∃ left, front = line ++ '\n' :: left ∧ rest = left ++ '\n' :: back := by
  rcases List.append_eq_append_iff.mp same with
    ⟨left, rfl, behind⟩ | ⟨left, rfl, behind⟩
  · cases left with
    | nil => exact Or.inl ⟨(List.append_nil _).symm, (List.cons.inj behind).2⟩
    | cons char left =>
        cases (List.cons.inj behind).1
        exact absurd (by simp) noFeed
  · cases left with
    | nil => exact Or.inl ⟨List.append_nil _, (List.cons.inj behind).2.symm⟩
    | cons char left =>
        obtain ⟨rfl, later⟩ := List.cons.inj behind
        exact Or.inr ⟨left, rfl, later⟩

theorem intercalate_head_ne {lines : List Text} {char : Char}
    (notFeed : char ≠ '\n') (head : ∀ line ∈ lines, line.head? ≠ some char) :
    (['\n'].intercalate lines).head? ≠ some char := by
  cases lines with
  | nil => nofun
  | cons line lines =>
      have first := head line List.mem_cons_self
      cases lines with
      | nil => rwa [List.intercalate_singleton]
      | cons next lines =>
          rw [List.intercalate_cons_cons, List.append_assoc,
            List.head?_append]
          cases isHead : line.head? with
          | none =>
              intro isChar
              cases isChar
              exact notFeed rfl
          | some other =>
              rw [isHead] at first
              exact first

/-- A fence behind a line feed begins a line. -/
theorem noFence_intercalate {lines : List Text}
    (noFeed : ∀ line ∈ lines, '\n' ∉ line)
    (head : ∀ line ∈ lines, line.head? ≠ some '`') (front back : Text) :
    ['\n'].intercalate lines ≠ front ++ '\n' :: '`' :: back := by
  induction lines generalizing front with
  | nil =>
      intro same
      exact List.append_ne_nil_of_right_ne_nil _ (List.cons_ne_nil _ _) same.symm
  | cons line lines induction =>
      rw [List.forall_mem_cons] at noFeed head
      intro same
      cases lines with
      | nil =>
          rw [List.intercalate_singleton] at same
          exact noFeed.1 (same ▸ by simp)
      | cons next lines =>
          rw [List.intercalate_cons_cons, List.append_assoc,
            List.singleton_append] at same
          rcases feed_in_lines noFeed.1 same.symm with
            ⟨-, isRest⟩ | ⟨left, -, isRest⟩
          · refine intercalate_head_ne (by decide) head.2 ?_
            rw [← isRest]
            rfl
          · exact induction noFeed.2 head.2 left isRest

namespace GitDiff

theorem body_noFence (diff : GitDiff) (front back : Text) :
    diff.body ≠ front ++ '\n' :: '`' :: back :=
  noFence_intercalate diff.line_noFeed diff.line_head front back

end GitDiff

/-! ## Patches -/

/-- The lines of a patch; a line feed behind the last one makes no
difference. -/
def patchLines (patch : Text) : List Text := feedLinesFrom [] patch

theorem feedLinesFrom_lines {lines : List Text}
    (noFeed : ∀ line ∈ lines, '\n' ∉ line) :
    feedLinesFrom [] (lines.flatMap (· ++ ['\n'])) = lines := by
  induction lines with
  | nil => rfl
  | cons line lines induction =>
      rw [List.forall_mem_cons] at noFeed
      rw [List.flatMap_cons, List.append_assoc, List.singleton_append,
        feedLinesFrom_append noFeed.1, induction noFeed.2]
      rfl

/-- A patch that does not end in a blank has the lines of the diff exactly if
it is the diff. -/
theorem patchLines_eq_iff {diff : GitDiff} {patch : Text}
    (plainEnd : ∀ char ∈ patch.getLast?, isSpace char = false) :
    patchLines patch = diff.lines ↔ patch = diff.body := by
  constructor
  · intro same
    obtain ⟨tail, isTail, isText⟩ := flatMap_feedLinesFrom [] patch
    rw [← patchLines, same, ← GitDiff.text, diff.text_eq, List.reverse_nil,
      List.nil_append] at isText
    rcases isTail with rfl | rfl
    · rw [List.append_nil] at isText
      have isFeed := plainEnd '\n' (by rw [← isText]; simp)
      exact absurd isFeed (by decide)
    · exact (List.append_cancel_right isText).symm
  · rintro rfl
    have notFeed : diff.body.getLast? ≠ some '\n' := fun isFeed =>
      absurd (plainEnd '\n' isFeed) (by decide)
    obtain ⟨rest, begins⟩ := diff.body_begins
    have notNil : diff.body ≠ [] := by
      rw [begins]
      nofun
    rw [patchLines, ← feedLinesFrom_concat (Or.inr notNil) notFeed,
      ← diff.text_eq]
    exact feedLinesFrom_lines diff.line_noFeed

/-! ## Stripped texts -/

/-- Neither end of the text is a blank. -/
def CleanEnds (text : Text) : Prop :=
  (∀ char ∈ text.head?, isSpace char = false) ∧
    ∀ char ∈ text.getLast?, isSpace char = false

theorem strip_split (text : Text) :
    ∃ trail, Blank trail ∧ text.dropWhile isSpace = strip text ++ trail := by
  refine ⟨((text.dropWhile isSpace).reverse.takeWhile isSpace).reverse, ?_, ?_⟩
  · intro char member
    exact List.mem_takeWhile_imp (List.mem_reverse.mp member)
  · rw [strip, ← List.reverse_append, List.takeWhile_append_dropWhile,
      List.reverse_reverse]

theorem dropWhile_head (text : Text) :
    ∀ char ∈ (text.dropWhile isSpace).head?, isSpace char = false := by
  intro char isHead
  have notBlank := List.head?_dropWhile_not isSpace text
  rw [Option.mem_def.mp isHead] at notBlank
  simpa using notBlank

theorem cleanEnds_strip (text : Text) : CleanEnds (strip text) := by
  constructor
  · intro char isHead
    obtain ⟨trail, -, same⟩ := strip_split text
    refine dropWhile_head text char ?_
    rw [same, List.head?_append, Option.mem_def.mp isHead]
    rfl
  · intro char isLast
    rw [strip, List.getLast?_reverse] at isLast
    exact dropWhile_head _ char isLast

theorem strip_blank_append {lead : Text} (blank : Blank lead) (text : Text) :
    strip (lead ++ text) = strip text := by
  rw [strip, List.dropWhile_append_of_pos blank, strip]

/-- Blanks around a text with clean ends are stripped. -/
theorem strip_clean {text trail : Text} (clean : CleanEnds text)
    (blank : Blank trail) : strip (text ++ trail) = text := by
  cases text with
  | nil =>
      have same := strip_blank_append blank []
      rwa [List.append_nil] at same
  | cons char rest =>
      have plain : ¬ isSpace char = true := by simp [clean.1 char rfl]
      have same := Trace.strip_eq_self clean.1 clean.2
      rw [strip, List.dropWhile_cons_of_neg plain] at same
      rw [strip, List.cons_append, List.dropWhile_cons_of_neg plain,
        ← List.cons_append, List.reverse_append, List.dropWhile_append_of_pos]
      · exact same
      · exact fun other member => blank other (List.mem_reverse.mp member)

/-- What stands before such a text loses the blanks it begins with. -/
theorem strip_around {text trail : Text} (notNil : text ≠ [])
    (clean : CleanEnds text) (blank : Blank trail) (front : Text) :
    strip (front ++ (text ++ trail)) = front.dropWhile isSpace ++ text := by
  have lead : Blank (front.takeWhile isSpace) := fun char member =>
    List.mem_takeWhile_imp member
  have cleanAll : CleanEnds (front.dropWhile isSpace ++ text) := by
    constructor
    · intro char isHead
      rw [List.head?_append] at isHead
      cases isDropped : (front.dropWhile isSpace).head? with
      | none =>
          rw [isDropped] at isHead
          exact clean.1 char isHead
      | some other =>
          rw [isDropped] at isHead
          cases isHead
          exact dropWhile_head front char isDropped
    · rw [List.getLast?_append_of_ne_nil _ notNil]
      exact clean.2
  conv_lhs => rw [← List.takeWhile_append_dropWhile (p := isSpace) (l := front)]
  rw [List.append_assoc, strip_blank_append lead, ← List.append_assoc,
    strip_clean cleanAll blank]

end AgentSchedBench.Agent
