import AgentSchedBench.Library.Decimals
import AgentSchedBench.Library.Slices
import AgentSchedBench.Library.TextLines
import AgentSchedBench.Library.Utf8

/-!
# Paging through a file

A page has at most as many lines as the limit says, and is trimmed to a number
of characters.  A reader follows the offset that each page suggests.  A line
that is too long for a page of its own leaves the page empty, and the page
suggests the offset that it was asked for.
-/

namespace AgentSchedBench.Agent

open JsonText Slices TextLines

namespace ReadFileTool

/-- `_MAX_CHARS` -/
def maxChars : Nat := 128000

/-- `_DEFAULT_LIMIT` -/
def defaultLimit : Nat := 2000

/-- `detect_image_mime` -/
def detectImageMime (data : List UInt8) : Option String :=
  if data.take 8 = [0x89, 0x50, 0x4e, 0x47, 0x0d, 0x0a, 0x1a, 0x0a] then
    some "image/png"
  else if data.take 3 = [0xff, 0xd8, 0xff] then some "image/jpeg"
  else if data.take 6 = [0x47, 0x49, 0x46, 0x38, 0x37, 0x61] ∨
      data.take 6 = [0x47, 0x49, 0x46, 0x38, 0x39, 0x61] then
    some "image/gif"
  else if data.take 4 = [0x52, 0x49, 0x46, 0x46] ∧
      (data.drop 8).take 4 = [0x57, 0x45, 0x42, 0x50] then
    some "image/webp"
  else none

/-- `mime.startswith("image/")` -/
def isImageMime (mime : String) : Bool :=
  "image/".toList.isPrefixOf mime.toList

/-! ## A page -/

/-- A line with its number, as a page shows it. -/
def numberedLine (number : Nat) (line : List Char) : List Char :=
  dumpNat number ++ "| ".toList ++ line

/-- The lines that are kept by the loop over the numbered lines. -/
def trimmedFrom (chars : Nat) : List (List Char) → List (List Char)
  | [] => []
  | line :: rest =>
      if maxChars < chars + (line.length + 1) then []
      else line :: trimmedFrom (chars + (line.length + 1)) rest

/-- `limit or self._DEFAULT_LIMIT` -/
def pageLines : Option Nat → Nat
  | none | some 0 => defaultLimit
  | some limit => limit

/-- What `execute` returns of a file. -/
inductive Reply where
  /-- The lines from an offset on, up to a line of a number of them. -/
  | page (offset stop total : Nat) (shown : List (List Char))
  /-- The file has no bytes. -/
  | emptyFile (path : String)
  /-- The blocks of an image. -/
  | image (mime path : String)
  | error (message : String)

namespace Reply

/-- The numbered lines of a reply. -/
def shown : Reply → List (List Char)
  | page _ _ _ shown => shown
  | _ => []

/-- The offset that a reply suggests. -/
def nextOffset : Reply → Option Nat
  | page _ stop total _ => if stop < total then some (stop + 1) else none
  | _ => none

/-- The reply reports the end of the file. -/
def ReportsEnd : Reply → Prop
  | page _ stop total _ => total ≤ stop
  | emptyFile _ => True
  | _ => False

/-- The text of a reply that is no image. -/
def text : Reply → Option String
  | page offset stop total shown =>
      some <| String.ofList (['\n'].intercalate shown) ++
        if stop < total then
          s!"\n\n(Showing lines {offset}-{stop} of {total}." ++
            s!" Use offset={stop + 1} to continue.)"
        else s!"\n\n(End of file — {total} lines total)"
  | emptyFile path => some s!"(Empty file: {path})"
  | image _ _ => none
  | error message => some message

end Reply

/-- `_format_paginated_output`; by the schema of the tool, the offset and the
limit are not negative. -/
def formatPaginatedOutput (textContent : List Char) (offset : Nat)
    (limit : Option Nat) : Reply :=
  let allLines := splitLines textContent
  let total := allLines.length
  let offset := if offset < 1 then 1 else offset
  if total < offset then
    .error s!"Error: offset {offset} is beyond end of file ({total} lines)"
  else
    let start := offset - 1
    let stop := min (start + pageLines limit) total
    let numbered :=
      (slice allLines start stop).mapIdx fun i line =>
        numberedLine (start + i + 1) line
    let result := ['\n'].intercalate numbered
    if maxChars < result.length then
      let trimmed := trimmedFrom 0 numbered
      .page offset (start + trimmed.length) total trimmed
    else .page offset stop total numbered

/-- `execute` for a file with some bytes; a type may be guessed by its name. -/
def execute (path : String) (raw : List UInt8) (guessedType : Option String)
    (offset : Nat) (limit : Option Nat) : Reply :=
  if raw = [] then .emptyFile path
  else
    let mime := (detectImageMime raw).or guessedType
    match mime.filter isImageMime with
    | some mime => .image mime path
    | none =>
        match Utf8.decode raw with
        | none =>
            .error <| s!"Error: Cannot read binary file {path}" ++
              " (MIME: " ++ mime.getD "unknown" ++ ")." ++
              " Only UTF-8 text and images are supported."
        | some textContent => formatPaginatedOutput textContent offset limit

/-! ## Following the offsets -/

/-- A file of some text: neither its bytes nor its name are those of an
image. -/
structure TextFile where
  path : String
  raw : List UInt8
  guessedType : Option String
  text : List Char
  decoded : Utf8.decode raw = some text
  notImage : ((detectImageMime raw).or guessedType).filter isImageMime = none

namespace TextFile

variable (file : TextFile) (limit : Option Nat)

def read (offset : Nat) : Reply :=
  execute file.path file.raw file.guessedType offset limit

/-- All lines of the file with their numbers. -/
def numbered : List (List Char) :=
  (splitLines file.text).mapIdx fun i line => numberedLine (i + 1) line

/-- The replies to a reader who follows the offsets until one reports the end
of the file. -/
inductive Paging : Nat → List Reply → Prop
  | last {offset : Nat} :
      (file.read limit offset).ReportsEnd →
        Paging offset [file.read limit offset]
  | next {offset next : Nat} {replies : List Reply} :
      (file.read limit offset).nextOffset = some next →
        Paging next replies →
        Paging offset (file.read limit offset :: replies)

/-- A reader who begins at the first line comes to the end, and is shown each
line once. -/
def ShowsOnce : Prop :=
  ∃ replies, Paging file limit 1 replies ∧
    replies.flatMap Reply.shown = file.numbered

end TextFile

/-- A line with its number has fewer characters than a page, or as many if it
stands alone on its page. -/
def LineFits (limit total index : Nat) (line : List Char) : Prop :=
  line.length < maxChars ∨
    line.length = maxChars ∧ (limit = 1 ∨ index + 1 = total)

/-! ### The characters of a page -/

/-- The numbered lines that a page shows. -/
def keptLines (numbered : List (List Char)) : List (List Char) :=
  if maxChars < (['\n'].intercalate numbered).length then
    trimmedFrom 0 numbered
  else numbered

/-- Each line but the last takes one more character. -/
theorem length_lt_joined {line : List Char} {lines : List (List Char)}
    (member : line ∈ lines) :
    line.length ≤ (['\n'].intercalate lines).length ∧
      (line.length = (['\n'].intercalate lines).length → lines = [line]) := by
  induction lines with
  | nil => cases member
  | cons first rest induction =>
      by_cases noRest : rest = []
      · subst noRest
        rw [List.mem_singleton] at member
        rw [List.intercalate_singleton, member]
        exact ⟨le_rfl, fun _ => rfl⟩
      · rw [List.intercalate_cons_of_ne_nil noRest, List.length_append,
          List.length_append, List.length_singleton]
        rcases List.mem_cons.mp member with rfl | inRest
        · exact ⟨by omega, fun same => absurd same (by omega)⟩
        · have shorter := (induction inRest).1
          exact ⟨by omega, fun same => absurd same (by omega)⟩

theorem trimmedFrom_prefix (chars : Nat) (lines : List (List Char)) :
    trimmedFrom chars lines <+: lines := by
  induction lines generalizing chars with
  | nil => exact List.prefix_rfl
  | cons line rest induction =>
      rw [trimmedFrom]
      split
      · exact List.nil_prefix
      · exact (List.prefix_cons_inj line).mpr (induction _)

theorem length_of_mem_trimmedFrom {chars : Nat} {lines : List (List Char)}
    {line : List Char} (member : line ∈ trimmedFrom chars lines) :
    line.length < maxChars := by
  induction lines generalizing chars with
  | nil => cases member
  | cons first rest induction =>
      rw [trimmedFrom] at member
      split at member
      · cases member
      · rcases List.mem_cons.mp member with rfl | inRest
        · omega
        · exact induction inRest

theorem keptLines_isPrefix (lines : List (List Char)) :
    keptLines lines <+: lines := by
  rw [keptLines]
  split
  · exact trimmedFrom_prefix 0 lines
  · exact List.prefix_rfl

/-- A line that is kept fits. -/
theorem length_of_mem_keptLines {lines : List (List Char)} {line : List Char}
    (member : line ∈ keptLines lines) :
    line.length < maxChars ∨ line.length = maxChars ∧ lines = [line] := by
  rw [keptLines] at member
  split at member
  · exact Or.inl (length_of_mem_trimmedFrom member)
  · next short =>
      obtain ⟨notLonger, alone⟩ := length_lt_joined member
      rcases Nat.lt_or_eq_of_le (Nat.le_trans notLonger (Nat.not_lt.mp short))
        with shorter | same
      · exact Or.inl shorter
      · exact Or.inr ⟨same, alone (by omega)⟩

/-- A first line that fits is kept. -/
theorem keptLines_ne_nil {line : List Char} {rest : List (List Char)}
    (fits : line.length < maxChars ∨ line.length = maxChars ∧ rest = []) :
    keptLines (line :: rest) ≠ [] := by
  rw [keptLines]
  split
  · next long =>
      rcases fits with shorter | ⟨same, rfl⟩
      · rw [trimmedFrom, if_neg (by omega)]
        exact List.cons_ne_nil _ _
      · rw [List.intercalate_singleton] at long
        omega
  · exact List.cons_ne_nil _ _

/-! ### The lines of a page -/

namespace TextFile

variable (file : TextFile) (limit : Option Nat)

theorem length_numbered :
    file.numbered.length = (splitLines file.text).length :=
  List.length_mapIdx

theorem numbered_slice (start stop : Nat) :
    (slice (splitLines file.text) start stop).mapIdx
        (fun i line => numberedLine (start + i + 1) line) =
      slice file.numbered start stop := by
  apply List.ext_getElem?
  intro i
  rw [List.getElem?_mapIdx, slice, slice, List.getElem?_take,
    List.getElem?_take]
  split
  · rw [List.getElem?_drop, List.getElem?_drop, numbered, List.getElem?_mapIdx]
  · rfl

/-- The numbered lines that the page from an index shows. -/
def pageAt (start : Nat) : List (List Char) :=
  keptLines
    (slice file.numbered start
      (min (start + pageLines limit) file.numbered.length))

theorem raw_eq_nil : file.raw = [] ↔ file.numbered = [] := by
  have sameText := Utf8.decodeReplace_eq file.decoded
  rw [← Utf8.decodeReplace_eq_nil, sameText, numbered, List.mapIdx_eq_nil_iff,
    splitLines_eq_nil]

/-- The reply to an offset within the file. -/
theorem read_page {start : Nat} (inside : start < file.numbered.length) :
    file.read limit (start + 1) =
      .page (start + 1) (start + (file.pageAt limit start).length)
        file.numbered.length (file.pageAt limit start) := by
  have notEmpty : file.raw ≠ [] := fun isEmpty => by
    rw [(raw_eq_nil file).mp isEmpty] at inside
    exact absurd inside (Nat.not_lt_zero start)
  rw [read, execute, if_neg notEmpty]
  dsimp only
  rw [file.notImage]
  dsimp only
  rw [file.decoded]
  dsimp only
  rw [formatPaginatedOutput, if_neg (Nat.not_lt.mpr (Nat.le_add_left 1 start)),
    if_neg (by rw [← length_numbered]; exact Nat.not_lt.mpr inside)]
  dsimp only
  rw [Nat.add_sub_cancel, numbered_slice, ← length_numbered, pageAt,
    keptLines]
  split
  · rfl
  · rw [length_slice (Nat.min_le_right _ _),
      Nat.add_sub_cancel' (Nat.le_min.mpr ⟨Nat.le_add_right _ _, inside.le⟩)]

section Page

variable {file limit} {start : Nat}

theorem pageAt_isPrefix (file : TextFile) (limit : Option Nat) (start : Nat) :
    file.pageAt limit start =
      (file.numbered.drop start).take (file.pageAt limit start).length := by
  have isPrefix : file.pageAt limit start <+: file.numbered.drop start :=
    (keptLines_isPrefix _).trans (List.take_prefix _ _)
  exact List.prefix_iff_eq_take.mp isPrefix

theorem pageAt_append_drop (file : TextFile) (limit : Option Nat)
    (start : Nat) :
    file.pageAt limit start ++
        file.numbered.drop (start + (file.pageAt limit start).length) =
      file.numbered.drop start := by
  rw [← List.drop_drop]
  nth_rewrite 1 [pageAt_isPrefix file limit start]
  exact List.take_append_drop _ _

theorem mem_pageAt {index : Nat} {line : List Char} (from_ : start ≤ index)
    (before : index < start + (file.pageAt limit start).length)
    (isLine : file.numbered[index]? = some line) :
    line ∈ file.pageAt limit start := by
  rw [pageAt_isPrefix file limit start]
  refine List.mem_of_getElem? (i := index - start) ?_
  rw [List.getElem?_take_of_lt (by omega), List.getElem?_drop,
    Nat.add_sub_cancel' from_, isLine]

/-- Each line that a page shows fits. -/
theorem lineFits_of_shown {index : Nat} {line : List Char}
    (inside : start < file.numbered.length) (from_ : start ≤ index)
    (before : index < start + (file.pageAt limit start).length)
    (isLine : file.numbered[index]? = some line) :
    LineFits (pageLines limit) file.numbered.length index line := by
  rcases length_of_mem_keptLines (mem_pageAt from_ before isLine) with
    shorter | ⟨same, alone⟩
  · exact Or.inl shorter
  · refine Or.inr ⟨same, ?_⟩
    have oneLine := congrArg List.length alone
    rw [length_slice (Nat.min_le_right _ _), List.length_singleton] at oneLine
    have shownLength := (keptLines_isPrefix (slice file.numbered start
      (min (start + pageLines limit) file.numbered.length))).length_le
    rw [alone, List.length_singleton, ← alone] at shownLength
    rw [pageAt] at before
    omega

theorem pageLines_pos (limit : Option Nat) : 0 < pageLines limit := by
  match limit with
  | none | some 0 => exact by decide
  | some (count + 1) => exact Nat.succ_pos count

/-- A page shows its first line if that fits. -/
theorem pageAt_ne_nil {line : List Char}
    (isLine : file.numbered[start]? = some line)
    (fits : LineFits (pageLines limit) file.numbered.length start line) :
    file.pageAt limit start ≠ [] := by
  obtain ⟨inside, isLine⟩ := List.getElem?_eq_some_iff.mp isLine
  have positive := pageLines_pos limit
  rw [pageAt, slice, List.drop_eq_getElem_cons inside, isLine]
  have room :
      min (start + pageLines limit) file.numbered.length - start ≠ 0 := by
    omega
  obtain ⟨count, isCount⟩ := Nat.exists_eq_succ_of_ne_zero room
  rw [isCount, List.take_succ_cons]
  refine keptLines_ne_nil (fits.imp_right fun alone => ⟨alone.1, ?_⟩)
  rw [List.take_eq_nil_iff, List.drop_eq_nil_iff]
  omega

end Page

/-! ### All pages -/

section Paging

variable {file limit} {start : Nat}

theorem nextOffset_read (inside : start < file.numbered.length) {next : Nat} :
    (file.read limit (start + 1)).nextOffset = some next ↔
      start + (file.pageAt limit start).length < file.numbered.length ∧
        start + (file.pageAt limit start).length + 1 = next := by
  rw [read_page file limit inside, Reply.nextOffset,
    Option.ite_none_right_eq_some, Option.some.injEq]

/-- From the offset of a reader who comes to the end, all lines fit. -/
theorem Paging.fits {offset : Nat} {replies : List Reply}
    (paging : Paging file limit offset replies)
    (isOffset : offset = start + 1) (inside : start < file.numbered.length)
    {index : Nat} {line : List Char} (from_ : start ≤ index)
    (isLine : file.numbered[index]? = some line) :
    LineFits (pageLines limit) file.numbered.length index line := by
  induction paging generalizing start with
  | last ends =>
      rw [isOffset, read_page file limit inside] at ends
      obtain ⟨isIndex, -⟩ := List.getElem?_eq_some_iff.mp isLine
      exact lineFits_of_shown inside from_ (Nat.lt_of_lt_of_le isIndex ends)
        isLine
  | next isNext _ induction =>
      rw [isOffset] at isNext
      obtain ⟨more, same⟩ := (nextOffset_read inside).mp isNext
      by_cases before : index < start + (file.pageAt limit start).length
      · exact lineFits_of_shown inside from_ before isLine
      · exact induction same.symm more (Nat.not_lt.mp before)

/-- If all lines fit, a reader is shown the lines from an index on. -/
theorem exists_paging
    (fits : ∀ index line, file.numbered[index]? = some line →
      LineFits (pageLines limit) file.numbered.length index line)
    (inside : start < file.numbered.length) :
    ∃ replies, Paging file limit (start + 1) replies ∧
      replies.flatMap Reply.shown = file.numbered.drop start := by
  induction isRest : file.numbered.length - start using
    Nat.strong_induction_on generalizing start with
  | _ rest induction =>
      have notEmpty := List.length_pos_of_ne_nil
        (pageAt_ne_nil (List.getElem?_eq_getElem inside)
          (fits start _ (List.getElem?_eq_getElem inside)))
      by_cases more :
          start + (file.pageAt limit start).length < file.numbered.length
      · obtain ⟨replies, paging, shown⟩ :=
          induction _ (by omega) more rfl
        refine ⟨_, .next ((nextOffset_read inside).mpr ⟨more, rfl⟩) paging, ?_⟩
        rw [List.flatMap_cons, shown, read_page file limit inside,
          Reply.shown]
        exact pageAt_append_drop file limit start
      · refine ⟨_, .last ?_, ?_⟩
        · rw [read_page file limit inside]
          exact Nat.not_lt.mp more
        · rw [List.flatMap_singleton, read_page file limit inside,
            Reply.shown, pageAt_isPrefix, List.take_of_length_le]
          rw [List.length_drop]
          omega

/-- A reader who begins at the first line and follows the offsets is shown
each line once if and only if each line fits on a page. -/
theorem showsOnce_iff (file : TextFile) (limit : Option Nat) :
    ShowsOnce file limit ↔
      ∀ index line, file.numbered[index]? = some line →
        LineFits (pageLines limit) file.numbered.length index line := by
  by_cases inside : 0 < file.numbered.length
  · constructor
    · rintro ⟨replies, paging, -⟩ index line isLine
      exact paging.fits rfl inside (Nat.zero_le index) isLine
    · exact fun fits => exists_paging fits inside
  · have noLines := List.eq_nil_of_length_eq_zero (Nat.eq_zero_of_not_pos inside)
    have isEmpty : file.read limit 1 = .emptyFile file.path := by
      rw [read, execute, if_pos ((raw_eq_nil file).mpr noLines)]
    refine iff_of_true ⟨_, .last (by rw [isEmpty]; trivial), ?_⟩ ?_
    · rw [List.flatMap_singleton, isEmpty, noLines]
      rfl
    · intro index line isLine
      rw [noLines] at isLine
      cases isLine

end Paging

/-! ### A line that is too long -/

theorem detectImageMime_letter (data : List UInt8) :
    detectImageMime (97 :: data) = none := by
  simp [detectImageMime]

/-- Two lines, the first of which has as many characters as a page. -/
def longFirstLine : TextFile where
  path := "a.txt"
  raw := List.replicate maxChars 97 ++ [10, 98]
  guessedType := some "text/plain"
  text := List.replicate maxChars 'a' ++ ['\n', 'b']
  decoded := Utf8.decode_replicate_append rfl rfl maxChars
  notImage := by
    have isLetter :
        List.replicate maxChars (97 : UInt8) =
          97 :: List.replicate (maxChars - 1) 97 :=
      List.replicate_succ (n := maxChars - 1)
    rw [isLetter, List.cons_append, detectImageMime_letter]
    rfl

theorem longFirstLine_numbered :
    longFirstLine.numbered =
      [numberedLine 1 (List.replicate maxChars 'a'),
        numberedLine 2 ['b']] := by
  have isLines :
      splitLines longFirstLine.text =
        [List.replicate maxChars 'a', ['b']] := by
    rw [longFirstLine, splitLines_append]
    · rfl
    · intro char member
      rw [List.eq_of_mem_replicate member]
      rfl
    · rfl
    · decide
  rw [numbered, isLines]
  rfl

/-- Its first page is empty, and suggests the first page. -/
theorem longFirstLine_not_showsOnce : ¬ longFirstLine.ShowsOnce none := by
  rintro ⟨replies, paging, -⟩
  have inside : 0 < longFirstLine.numbered.length := by
    rw [longFirstLine_numbered]
    exact Nat.succ_pos 1
  have isFirst :
      longFirstLine.numbered[0]? =
        some (numberedLine 1 (List.replicate maxChars 'a')) := by
    rw [longFirstLine_numbered]
    rfl
  have length :
      (numberedLine 1 (List.replicate maxChars 'a')).length =
        maxChars + 3 := by
    rw [numberedLine, List.length_append, List.length_replicate, Nat.add_comm]
    rfl
  rcases paging.fits rfl inside (Nat.zero_le 0) isFirst with
    shorter | ⟨same, -⟩ <;>
    omega

end TextFile

end ReadFileTool

end AgentSchedBench.Agent
