import AgentSchedBench.Library.LineWindows
import AgentSchedBench.Trace.Files

/-!
# Editing a file

A successful edit should replace what matches the old text, exactly or up to
the white space around lines, and leave all other bytes as they are.  Both
implementations write the text of the match wherever it occurs first, and all
line feeds of a file with some pairs of a return and a feed as such pairs.
-/

namespace AgentSchedBench.Agent

open AgentSchedBench.Trace (Text strip)
open LineWindows Pieces TextLines

/-! ## Bytes and line endings -/

/-- `raw.decode("utf-8")`, unless it raises. -/
def decodeUtf8 (raw : ByteArray) : Option Text :=
  (String.fromUTF8? raw).map String.toList

/-- `text.encode("utf-8")` -/
def encodeUtf8 (text : Text) : ByteArray := (String.ofList text).toUTF8

/-- `b"\r\n" in raw` -/
def UsesCrlf (raw : ByteArray) : Prop := [13, 10] <:+: raw.data.toList

instance (raw : ByteArray) : Decidable (UsesCrlf raw) :=
  inferInstanceAs (Decidable (_ <:+: _))

/-- `text.replace("\r\n", "\n")` -/
def crlfToLf : Text → Text
  | [] => []
  | '\r' :: '\n' :: rest => '\n' :: crlfToLf rest
  | char :: rest => char :: crlfToLf rest

/-- `text.replace("\n", "\r\n")` -/
def lfToCrlf (text : Text) : Text :=
  text.flatMap fun char => if char = '\n' then ['\r', '\n'] else [char]

/-! ## The edit -/

/-- The windows of lines that equal the old ones but for their margins. -/
def matchCandidates (content strippedOld : List Text) : List Text :=
  (List.range (content.length + 1 - strippedOld.length)).filterMap fun start =>
    let window := (content.drop start).take strippedOld.length
    if window.map strip = strippedOld then some (['\n'].intercalate window)
    else none

/-- `_find_match` -/
def findMatch (content oldText : Text) : Option (Text × Nat) :=
  if oldText <:+: content then some (oldText, count id oldText content)
  else if splitLines oldText = [] then none
  else
    let candidates :=
      matchCandidates (splitLines content) ((splitLines oldText).map strip)
    candidates.head?.map fun first => (first, candidates.length)

/-- What an edit reports. -/
inductive EditReply where
  | edited
  | notFound
  | ambiguous (count : Nat)
  | failed
deriving DecidableEq, Repr

/-- The reply, and what is in the file then. -/
structure EditOutcome where
  reply : EditReply
  file : ByteArray

/-- The arguments of a call; one that is missing is none. -/
structure EditArguments where
  path : Option Text
  oldText : Option Text
  newText : Option Text
  replaceAll : Bool

/-- How many occurrences are replaced. -/
def editLimit (replaceAll : Bool) : Option Nat :=
  if replaceAll then none else some 1

/-- What both implementations make of a file that they can read. -/
def editFile (raw : ByteArray) (oldText newText : Text) (replaceAll : Bool) :
    EditOutcome :=
  match decodeUtf8 raw with
  | none => ⟨.failed, raw⟩
  | some text =>
      let content := crlfToLf text
      match findMatch content (crlfToLf oldText) with
      | none => ⟨.notFound, raw⟩
      | some (found, count) =>
          if 1 < count ∧ replaceAll = false then ⟨.ambiguous count, raw⟩
          else
            let newContent :=
              replace found (crlfToLf newText) (editLimit replaceAll) content
            ⟨.edited,
              encodeUtf8
                (if UsesCrlf raw then lfToCrlf newContent else newContent)⟩

/-- `EditFileTool.execute` -/
def EditFileTool.execute (arguments : EditArguments) (raw : ByteArray) :
    EditOutcome :=
  if arguments.path.getD [] = [] then ⟨.failed, raw⟩
  else
    match arguments.oldText, arguments.newText with
    | some oldText, some newText =>
        editFile raw oldText newText arguments.replaceAll
    | _, _ => ⟨.failed, raw⟩

/-- `handle_edit_file` of the replay agent. -/
def handleEditFile (arguments : EditArguments) (raw : ByteArray) :
    EditOutcome :=
  -- a path that is missing is the empty one, which cannot be opened
  if arguments.path.getD [] = [] then ⟨.failed, raw⟩
  else
    editFile raw (arguments.oldText.getD []) (arguments.newText.getD [])
      arguments.replaceAll

/-! ## What an edit should do -/

/-- A character of a file; a return with its feed is one. -/
inductive FileChar where
  | plain (char : Char)
  | crlf
deriving DecidableEq, Repr

/-- The file as it is written, and as it is shown to be edited. -/
def FileChar.written : FileChar → Text
  | .plain char => [char]
  | .crlf => ['\r', '\n']

def FileChar.shown : FileChar → Char
  | .plain char => char
  | .crlf => '\n'

def fileChars : Text → List FileChar
  | [] => []
  | '\r' :: '\n' :: rest => .crlf :: fileChars rest
  | char :: rest => .plain char :: fileChars rest

/-- A line without its margins. -/
def strippedLine (line : EndedLine FileChar) : Text :=
  strip (line.body.map FileChar.shown)

section Regions

variable (oldText : Text) (file : List FileChar)

/-- Is there an exact match? -/
def MatchesExactly : Prop := oldText <:+: file.map FileChar.shown

instance : Decidable (MatchesExactly oldText file) :=
  inferInstanceAs (Decidable (_ <:+: _))

/--
The pieces of the file around the regions that match: those that do exactly,
or else the windows of lines that equal the old ones but for their margins.
-/
def regionPieces : List (List FileChar) :=
  if MatchesExactly oldText file then
    pieces FileChar.shown oldText none file
  else
    windowPieces strippedLine ((splitLines oldText).map strip)
      (endedLines FileChar.shown file)

/-- How many regions match. -/
def regionCount : Nat :=
  if MatchesExactly oldText file then count FileChar.shown oldText file
  else
    (windowStarts ((splitLines oldText).map strip)
      ((endedLines FileChar.shown file).map strippedLine)).length

/-- What a region looks like. -/
def IsRegion (found : List FileChar) : Prop :=
  found.map FileChar.shown = oldText ∨
    IsWindow strippedLine ((splitLines oldText).map strip) found

end Regions

/-- The text with the line ending of the file. -/
def withEndingOf (raw : ByteArray) (text : Text) : Text :=
  if UsesCrlf raw then lfToCrlf (crlfToLf text) else crlfToLf text

/--
There is a region that matches, just one unless all are to be replaced, and
in the file the new text stands for each, between the bytes around them.
-/
structure EditedAs (raw : ByteArray) (oldText newText : Text)
    (replaceAll : Bool) (text : Text) (after : ByteArray) : Prop where
  decoded : decodeUtf8 raw = some text
  found : 0 < regionCount (crlfToLf oldText) (fileChars text)
  unique :
    replaceAll = false →
      regionCount (crlfToLf oldText) (fileChars text) = 1
  written :
    after =
      encodeUtf8
        ((withEndingOf raw newText).intercalate
          ((regionPieces (crlfToLf oldText) (fileChars text)).map
            (List.flatMap FileChar.written)))

/-- A success has edited the file so; otherwise it is as it was. -/
def EditsRegion (raw : ByteArray) (oldText newText : Text)
    (replaceAll : Bool) (outcome : EditOutcome) : Prop :=
  match outcome.reply with
  | .edited => ∃ text, EditedAs raw oldText newText replaceAll text outcome.file
  | _ => outcome.file = raw

/--
For every new text both implementations edit the file as they should, and
they agree.
-/
def EditsRightly (raw : ByteArray) (oldText : Text) (replaceAll : Bool) :
    Prop :=
  ∀ path newText : Text, path ≠ [] →
    let arguments : EditArguments :=
      ⟨some path, some oldText, some newText, replaceAll⟩
    EditsRegion raw oldText newText replaceAll
        (EditFileTool.execute arguments raw) ∧
      EditsRegion raw oldText newText replaceAll
        (handleEditFile arguments raw) ∧
      EditFileTool.execute arguments raw = handleEditFile arguments raw

/-! ## When it does -/

/--
Where an edit is made, the text of the match, unless it is exact, occurs at
the windows and only there; and if the file uses pairs of a return and a feed,
then there is no feed by itself outside the regions.
-/
structure EditFits (raw : ByteArray) (oldText : Text) (replaceAll : Bool)
    (text found : Text) : Prop where
  apart :
    ¬ MatchesExactly oldText (fileChars text) →
      pieces id found (editLimit replaceAll) (crlfToLf text) =
        (regionPieces oldText (fileChars text)).map
          (List.map FileChar.shown)
  endings :
    UsesCrlf raw →
      ∀ piece ∈ regionPieces oldText (fileChars text),
        FileChar.plain '\n' ∉ piece

/-! ## Encoding -/

theorem decodeUtf8_eq_some {raw : ByteArray} {text : Text} :
    decodeUtf8 raw = some text ↔ raw = encodeUtf8 text := by
  rw [decodeUtf8, encodeUtf8, String.fromUTF8?]
  constructor
  · intro decoded
    split at decoded
    · next valid =>
      obtain rfl := Option.some.inj decoded
      rw [String.ofList_toList]
      rfl
    · cases decoded
  · rintro rfl
    have valid : (String.ofList text).toUTF8.IsValidUTF8 :=
      (String.ofList text).isValidUTF8
    rw [dif_pos valid]
    exact congrArg some (String.toList_ofList)

theorem encodeUtf8_injective {first second : Text} :
    encodeUtf8 first = encodeUtf8 second ↔ first = second := by
  constructor
  · intro same
    have decoded := decodeUtf8_eq_some.mpr (rfl : _ = encodeUtf8 first)
    rw [same, decodeUtf8_eq_some.mpr rfl] at decoded
    exact (Option.some.inj decoded).symm
  · rintro rfl
    rfl

theorem encodeUtf8_bytes (text : Text) :
    (encodeUtf8 text).data.toList = text.flatMap String.utf8EncodeChar := by
  rw [encodeUtf8]
  change (String.ofList text).toByteArray.data.toList = _
  rw [String.toByteArray_ofList, List.utf8Encode, List.toList_data_toByteArray]

/-! ## Characters of a file -/

theorem fileChars_cons {char : Char} {rest : Text}
    (unpaired : ∀ tail, char :: rest ≠ '\r' :: '\n' :: tail) :
    fileChars (char :: rest) = .plain char :: fileChars rest := by
  rw [fileChars.eq_def]
  split
  · next same => cases same
  · next tail same => exact absurd same (unpaired tail)
  · next same =>
    cases same
    rfl

theorem crlfToLf_eq (text : Text) :
    crlfToLf text = (fileChars text).map FileChar.shown := by
  induction text using crlfToLf.induct with
  | case1 => rfl
  | case2 rest induction =>
      rw [crlfToLf, fileChars, List.map_cons, induction]
      rfl
  | case3 char rest unpaired induction =>
      have notPair : ∀ tail, char :: rest ≠ '\r' :: '\n' :: tail := by
        intro tail same
        cases same
        exact unpaired tail rfl rfl
      rw [fileChars_cons notPair, List.map_cons, ← induction,
        crlfToLf.eq_def]
      split
      · next same => cases same
      · next tail same => exact absurd same (notPair tail)
      · next same =>
        cases same
        rfl

theorem written_fileChars (text : Text) :
    (fileChars text).flatMap FileChar.written = text := by
  induction text using fileChars.induct with
  | case1 => rfl
  | case2 rest induction =>
      rw [fileChars, List.flatMap_cons, induction]
      rfl
  | case3 char rest unpaired induction =>
      rw [fileChars_cons, List.flatMap_cons, induction]
      · rfl
      · intro tail same
        cases same
        exact unpaired tail rfl rfl

/-- A return and a feed that follow each other are one character. -/
def Separate (chars : List FileChar) : Prop :=
  chars.IsChain fun first second =>
    first = .plain '\r' → second ≠ .plain '\n'

theorem separate_fileChars (text : Text) : Separate (fileChars text) := by
  induction text using fileChars.induct with
  | case1 => exact .nil
  | case2 rest induction =>
      rw [fileChars, Separate, List.isChain_cons]
      exact ⟨fun _ _ => nofun, induction⟩
  | case3 char rest unpaired induction =>
      have notPair : ∀ tail, char :: rest ≠ '\r' :: '\n' :: tail := by
        intro tail same
        cases same
        exact unpaired tail rfl rfl
      rw [fileChars_cons notPair, Separate, List.isChain_cons]
      refine ⟨fun second isSecond isReturn isFeed => ?_, induction⟩
      cases isReturn
      subst isFeed
      rw [fileChars.eq_def] at isSecond
      split at isSecond
      · cases isSecond
      · cases isSecond
      · next tail _ =>
        cases isSecond
        exact notPair _ rfl

/-- Characters that are separate can be told from what is written. -/
theorem fileChars_written {chars : List FileChar}
    (separate : Separate chars) :
    fileChars (chars.flatMap FileChar.written) = chars := by
  induction chars with
  | nil => rfl
  | cons first rest induction =>
      rw [Separate, List.isChain_cons] at separate
      obtain ⟨apart, later⟩ := separate
      rw [List.flatMap_cons]
      cases first with
      | crlf =>
          exact congrArg (FileChar.crlf :: ·) (induction later)
      | plain char =>
          rw [FileChar.written, List.singleton_append, fileChars_cons,
            induction later]
          intro tail same
          obtain ⟨rfl, feeds⟩ := List.cons.inj same
          cases rest with
          | nil => cases feeds
          | cons second rest =>
              cases second with
              | crlf => cases feeds
              | plain second =>
                  cases feeds
                  exact apart _ rfl rfl rfl

/-- Only pairs are written as pairs. -/
theorem usesCrlf_of_mem {text : Text} (hasPair : .crlf ∈ fileChars text) :
    UsesCrlf (encodeUtf8 text) := by
  obtain ⟨front, back, split⟩ := List.append_of_mem hasPair
  have written := written_fileChars text
  rw [split, List.flatMap_append, List.flatMap_cons] at written
  rw [UsesCrlf, encodeUtf8_bytes, ← written, List.flatMap_append,
    List.flatMap_append]
  exact List.infix_append' _ _ _

/-- The characters of a text, all of whose feeds are written as pairs. -/
def paired (text : Text) : List FileChar :=
  text.map fun char => if char = '\n' then .crlf else .plain char

theorem written_paired (text : Text) :
    (paired text).flatMap FileChar.written = lfToCrlf text := by
  rw [paired, lfToCrlf, List.flatMap_map]
  refine List.flatMap_congr fun char _ => ?_
  split <;> rfl

theorem plain_feed_notMem_paired (text : Text) :
    .plain '\n' ∉ paired text := by
  rw [paired, List.mem_map]
  rintro ⟨char, -, isFeed⟩
  split at isFeed
  · cases isFeed
  · next notFeed => exact notFeed (FileChar.plain.inj isFeed)

theorem separate_of_notMem {chars : List FileChar}
    (noFeed : .plain '\n' ∉ chars) : Separate chars := by
  induction chars with
  | nil => exact .nil
  | cons first rest induction =>
      rw [List.mem_cons, not_or] at noFeed
      rw [Separate, List.isChain_cons]
      refine ⟨?_, induction noFeed.2⟩
      rintro second isSecond - rfl
      exact noFeed.2 (List.mem_of_mem_head? isSecond)

theorem shown_paired (text : Text) :
    (paired text).map FileChar.shown = text := by
  rw [paired, List.map_map]
  refine (List.map_congr_left fun char _ => ?_).trans (List.map_id text)
  rw [Function.comp_apply]
  split
  · next isFeed => exact isFeed.symm
  · rfl

theorem paired_shown {chars : List FileChar}
    (noFeed : .plain '\n' ∉ chars) :
    paired (chars.map FileChar.shown) = chars := by
  rw [paired, List.map_map]
  refine (List.map_congr_left fun char member => ?_).trans (List.map_id chars)
  cases char with
  | crlf => rfl
  | plain char =>
      refine if_neg fun isFeed => noFeed ?_
      rwa [← show char = '\n' from isFeed]

/-- The feeds of a text are written as pairs where it is a file of pairs. -/
theorem lfToCrlf_eq_written {text : Text} {chars : List FileChar}
    (separate : Separate chars) :
    lfToCrlf text = chars.flatMap FileChar.written ↔
      text = chars.map FileChar.shown ∧ .plain '\n' ∉ chars := by
  constructor
  · intro same
    have isPaired : paired text = chars := by
      rw [← fileChars_written separate, ← same, ← written_paired,
        fileChars_written (separate_of_notMem (plain_feed_notMem_paired _))]
    rw [← isPaired]
    exact ⟨(shown_paired text).symm, plain_feed_notMem_paired text⟩
  · rintro ⟨rfl, noFeed⟩
    rw [← written_paired, paired_shown noFeed]

/-- Without pairs a file is written as it is shown. -/
theorem written_eq_shown {chars : List FileChar} (noPair : .crlf ∉ chars) :
    chars.flatMap FileChar.written = chars.map FileChar.shown := by
  induction chars with
  | nil => rfl
  | cons first rest induction =>
      rw [List.mem_cons, not_or] at noPair
      rw [List.flatMap_cons, List.map_cons, induction noPair.2]
      cases first with
      | crlf => exact absurd rfl noPair.1
      | plain char => rfl

/-! ## Regions -/

theorem regionPieces_cut (oldText : Text) (file : List FileChar) :
    CutAt (IsRegion oldText) file (regionPieces oldText file) := by
  rw [regionPieces]
  split
  · exact
      (pieces_cut FileChar.shown oldText none file).region_mono fun _ => .inl
  · have isCut :=
      windowPieces_cut strippedLine ((splitLines oldText).map strip)
        (endedLines FileChar.shown file)
    rw [textOf_endedLines] at isCut
    exact isCut.region_mono fun _ => .inr

/-- The lines of the file, as they are shown. -/
theorem strippedLines_eq (file : List FileChar) :
    (endedLines FileChar.shown file).map strippedLine =
      (splitLines (file.map FileChar.shown)).map strip := by
  rw [← endedLines_bodies, List.map_map]
  rfl

theorem matchCandidates_length (content strippedOld : List Text) :
    (matchCandidates content strippedOld).length =
      (windowStarts strippedOld (content.map strip)).length := by
  rw [matchCandidates, windowStarts, List.length_map]
  induction List.range (content.length + 1 - strippedOld.length) with
  | nil => rfl
  | cons start rest induction =>
      rw [List.filterMap_cons, List.filter_cons, List.map_drop.symm,
        List.map_take.symm]
      by_cases isWindow :
          ((content.drop start).take strippedOld.length).map strip =
            strippedOld
      · rw [if_pos isWindow, if_pos (decide_eq_true isWindow),
          List.length_cons, induction, List.length_cons]
      · rw [if_neg isWindow, if_neg (by simpa using isWindow), induction]

variable {oldText found : Text} {file : List FileChar} {number : Nat}

/-- What is found is counted as the regions are. -/
theorem findMatch_count
    (isFound :
      findMatch (file.map FileChar.shown) oldText = some (found, number)) :
    number = regionCount oldText file ∧ 0 < number ∧
      (MatchesExactly oldText file → found = oldText) := by
  rw [findMatch] at isFound
  rw [regionCount]
  by_cases exact : MatchesExactly oldText file
  · rw [if_pos (show oldText <:+: _ from exact), count_map,
      Function.id_comp] at isFound
    cases isFound
    rw [if_pos exact]
    exact ⟨rfl, count_pos _ _ exact, fun _ => rfl⟩
  · rw [if_neg (show ¬ oldText <:+: _ from exact)] at isFound
    rw [if_neg exact]
    split at isFound
    · cases isFound
    · dsimp only at isFound
      obtain ⟨first, isFirst, same⟩ := Option.map_eq_some_iff.mp isFound
      cases same
      rw [strippedLines_eq, ← matchCandidates_length]
      exact
        ⟨rfl, List.length_pos_of_mem (List.mem_of_mem_head? isFirst),
          fun isExact => absurd isExact exact⟩

/-- An exact match occurs at its regions. -/
theorem pieces_exact {replaceAll : Bool}
    (exact : MatchesExactly oldText file)
    (single : regionCount oldText file ≤ 1 ∨ replaceAll = true) :
    pieces id oldText (editLimit replaceAll) (file.map FileChar.shown) =
      (regionPieces oldText file).map (List.map FileChar.shown) := by
  rw [regionCount, if_pos exact] at single
  rw [regionPieces, if_pos exact, pieces_map, Function.id_comp, editLimit]
  cases replaceAll with
  | true => rfl
  | false =>
      rcases single with single | isAll
      · rw [if_neg (by decide),
          pieces_within FileChar.shown oldText 1 file
            (Nat.sub_le_iff_le_add.mp single)]
      · cases isAll

/-! ## One edit -/

/-- The line endings of what is written. -/
def endedAs (raw : ByteArray) (text : Text) : Text :=
  if UsesCrlf raw then lfToCrlf text else text

theorem lfToCrlf_intercalate (new : Text) (cuts : List Text) :
    lfToCrlf (new.intercalate cuts) =
      (lfToCrlf new).intercalate (cuts.map lfToCrlf) := by
  induction cuts with
  | nil => rfl
  | cons piece rest induction =>
      cases rest with
      | nil => simp only [List.intercalate_singleton, List.map_cons,
          List.map_nil]
      | cons next rest =>
          rw [List.intercalate_cons_cons, List.map_cons, List.map_cons,
            List.intercalate_cons_cons, ← List.map_cons, ← induction]
          simp only [lfToCrlf, List.flatMap_append]

theorem endedAs_intercalate (raw : ByteArray) (new : Text)
    (cuts : List Text) :
    endedAs raw (new.intercalate cuts) =
      (endedAs raw new).intercalate (cuts.map (endedAs raw)) := by
  by_cases pairs : UsesCrlf raw
  · have isExpanded : endedAs raw = lfToCrlf :=
      funext fun text => if_pos pairs
    rw [isExpanded]
    exact lfToCrlf_intercalate new cuts
  · have isSame : endedAs raw = id := funext fun text => if_neg pairs
    rw [isSame, List.map_id]
    rfl

/-- A piece is written as it was, as far as its line endings allow. -/
theorem endedAs_eq_written {raw : ByteArray} {text piece : Text}
    {chars : List FileChar} (decoded : decodeUtf8 raw = some text)
    (isPiece : chars <:+: fileChars text) :
    endedAs raw piece = chars.flatMap FileChar.written ↔
      piece = chars.map FileChar.shown ∧
        (UsesCrlf raw → .plain '\n' ∉ chars) := by
  by_cases pairs : UsesCrlf raw
  · have isSeparate :=
      List.IsChain.infix (separate_fileChars text) isPiece
    simp only [endedAs, pairs, if_true, forall_const]
    exact lfToCrlf_eq_written isSeparate
  · have noPair : .crlf ∉ chars := by
      intro member
      rw [decodeUtf8_eq_some.mp decoded] at pairs
      exact pairs (usesCrlf_of_mem (isPiece.subset member))
    simp [endedAs, pairs, written_eq_shown noPair]

theorem map_endedAs_eq_written {raw : ByteArray} {text : Text}
    {cuts : List Text} {regions : List (List FileChar)}
    (decoded : decodeUtf8 raw = some text)
    (arePieces : ∀ piece ∈ regions, piece <:+: fileChars text) :
    cuts.map (endedAs raw) = regions.map (List.flatMap FileChar.written) ↔
      cuts = regions.map (List.map FileChar.shown) ∧
        (UsesCrlf raw → ∀ piece ∈ regions, .plain '\n' ∉ piece) := by
  induction regions generalizing cuts with
  | nil => simp
  | cons region regions induction =>
      rw [List.forall_mem_cons] at arePieces
      cases cuts with
      | nil => simp
      | cons piece cuts =>
          simp only [List.map_cons, List.cons.injEq, List.forall_mem_cons,
            endedAs_eq_written decoded arePieces.1, induction arePieces.2]
          tauto

/-- A text without line ends is written as it is. -/
theorem withEndingOf_plain {text : Text} (noReturn : '\r' ∉ text)
    (noFeed : '\n' ∉ text) (raw : ByteArray) :
    withEndingOf raw text = text := by
  have isPlain : crlfToLf text = text := by
    induction text with
    | nil => rfl
    | cons char rest induction =>
        rw [List.mem_cons, not_or] at noReturn noFeed
        rw [crlfToLf.eq_def]
        split
        · next same => cases same
        · next same =>
          cases same
          exact absurd rfl noReturn.1
        · next same =>
          cases same
          rw [induction noReturn.2 noFeed.2]
  have isExpanded : lfToCrlf text = text := by
    rw [← written_paired, written_eq_shown, shown_paired]
    rw [paired, List.mem_map]
    rintro ⟨char, member, isPair⟩
    split at isPair
    · next isFeed => exact noFeed (isFeed ▸ member)
    · cases isPair
  rw [withEndingOf, isPlain, isExpanded, ite_self]

/-- Some text tells any pieces of a file apart. -/
theorem exists_telling (cuts others : List Text) (cutsNonempty : cuts ≠ [])
    (othersNonempty : others ≠ []) :
    ∃ newText : Text,
      (∀ raw, withEndingOf raw newText = newText) ∧
        (newText.intercalate cuts = newText.intercalate others →
          cuts = others) := by
  have short {piece : Text} {list : List Text} (member : piece ∈ list) :
      piece.length ≤ list.flatten.length :=
    (List.sublist_flatten_of_mem member).length_le
  let most := cuts.flatten.length + others.flatten.length
  refine ⟨List.replicate most 'a' ++ ['b'], fun raw => ?_, ?_⟩
  · refine withEndingOf_plain ?_ ?_ raw
    · simp [List.mem_replicate]
    · simp [List.mem_replicate]
  · exact
      intercalate_injective (by decide) most cutsNonempty othersNonempty
        (fun piece member => (short member).trans (Nat.le_add_right _ _))
        (fun piece member => (short member).trans (Nat.le_add_left _ _))

section Fits

variable {raw : ByteArray} {oldText text found : Text} {replaceAll : Bool}
  {number : Nat}

/-- What an edit writes, and what it should write. -/
theorem editFile_edits
    (decoded : decodeUtf8 raw = some text)
    (isFound :
      findMatch (crlfToLf text) (crlfToLf oldText) = some (found, number))
    (single : number ≤ 1 ∨ replaceAll = true) (newText : Text) :
    EditsRegion raw oldText newText replaceAll
        (editFile raw oldText newText replaceAll) ↔
      (withEndingOf raw newText).intercalate
          ((pieces id found (editLimit replaceAll) (crlfToLf text)).map
            (endedAs raw)) =
        (withEndingOf raw newText).intercalate
          ((regionPieces (crlfToLf oldText) (fileChars text)).map
            (List.flatMap FileChar.written)) := by
  have edits : ¬ (1 < number ∧ replaceAll = false) := by
    rintro ⟨several, notAll⟩
    rcases single with single | isAll
    · omega
    · rw [isAll] at notAll
      cases notAll
  have ends : withEndingOf raw newText = endedAs raw (crlfToLf newText) := rfl
  have counted := findMatch_count (crlfToLf_eq text ▸ isFound)
  rw [editFile, decoded]
  dsimp only
  rw [isFound]
  dsimp only
  rw [if_neg edits, EditsRegion]
  dsimp only
  rw [← endedAs, replace, endedAs_intercalate, ← ends]
  constructor
  · rintro ⟨other, edited⟩
    cases Option.some.inj (decoded.symm.trans edited.decoded)
    exact encodeUtf8_injective.mp edited.written
  · intro same
    refine ⟨text, decoded, counted.1 ▸ counted.2.1, fun notAll => ?_, ?_⟩
    · rcases single with single | isAll
      · have positive := counted.2.1
        rw [← counted.1]
        omega
      · rw [isAll] at notAll
        cases notAll
    · rw [same]

/-- The pieces are as they should be exactly when the edit fits. -/
theorem editFits_iff
    (decoded : decodeUtf8 raw = some text)
    (isFound :
      findMatch (crlfToLf text) (crlfToLf oldText) = some (found, number))
    (single : number ≤ 1 ∨ replaceAll = true) :
    (pieces id found (editLimit replaceAll) (crlfToLf text)).map
          (endedAs raw) =
        (regionPieces (crlfToLf oldText) (fileChars text)).map
          (List.flatMap FileChar.written) ↔
      EditFits raw (crlfToLf oldText) replaceAll text found := by
  rw [map_endedAs_eq_written decoded (regionPieces_cut _ _).isInfix]
  have counted := findMatch_count (crlfToLf_eq text ▸ isFound)
  constructor
  · rintro ⟨same, endings⟩
    exact ⟨fun _ => same, endings⟩
  · rintro ⟨apart, endings⟩
    refine ⟨?_, endings⟩
    by_cases exact : MatchesExactly (crlfToLf oldText) (fileChars text)
    · rw [counted.2.2 exact, crlfToLf_eq text]
      exact pieces_exact exact (counted.1 ▸ single)
    · exact apart exact

end Fits

/-- Wherever an edit is made, it fits. -/
def EditAlwaysFits (raw : ByteArray) (oldText : Text) (replaceAll : Bool) :
    Prop :=
  ∀ text found number,
    decodeUtf8 raw = some text →
      findMatch (crlfToLf text) (crlfToLf oldText) = some (found, number) →
        number ≤ 1 ∨ replaceAll = true →
          EditFits raw (crlfToLf oldText) replaceAll text found

/--
Both implementations edit a file as they should, whatever the new text,
exactly when the edit fits.
-/
theorem editsRightly_iff (raw : ByteArray) (oldText : Text)
    (replaceAll : Bool) :
    EditsRightly raw oldText replaceAll ↔
      EditAlwaysFits raw oldText replaceAll := by
  constructor
  · intro rightly text found number decoded isFound single
    rw [← editFits_iff decoded isFound single]
    obtain ⟨newText, isPlain, tells⟩ :=
      exists_telling
        ((pieces id found (editLimit replaceAll) (crlfToLf text)).map
          (endedAs raw))
        ((regionPieces (crlfToLf oldText) (fileChars text)).map
          (List.flatMap FileChar.written))
        (by simpa using (pieces_cut id found _ _).ne_nil)
        (by simpa using (regionPieces_cut _ _).ne_nil)
    have edited := (rightly ['f'] newText (by decide)).1
    exact tells
      (isPlain raw ▸ (editFile_edits decoded isFound single newText).mp edited)
  · intro fits path newText hasPath
    have edited :
        EditsRegion raw oldText newText replaceAll
          (editFile raw oldText newText replaceAll) := by
      cases decoded : decodeUtf8 raw with
      | none => simp [editFile, decoded, EditsRegion]
      | some text =>
          cases isFound : findMatch (crlfToLf text) (crlfToLf oldText) with
          | none => simp [editFile, decoded, isFound, EditsRegion]
          | some result =>
              obtain ⟨found, number⟩ := result
              by_cases single : number ≤ 1 ∨ replaceAll = true
              · rw [editFile_edits decoded isFound single,
                  (editFits_iff decoded isFound single).mpr
                    (fits text found number decoded isFound single)]
              · have ambiguous : 1 < number ∧ replaceAll = false := by
                  simpa using single
                simp [editFile, decoded, isFound, EditsRegion, ambiguous]
    simp only [EditFileTool.execute, handleEditFile, Option.getD_some,
      if_neg hasPath]
    exact ⟨edited, edited, trivial⟩

/-- A line is edited where its text occurs first, within another line. -/
theorem earlier_occurrence_edited :
    ¬ ∀ (raw : ByteArray) (oldText : Text) (replaceAll : Bool),
      EditsRightly raw oldText replaceAll := by
  intro always
  let text : Text := "xfoo\nfoo\n".toList
  have fits :=
    (editsRightly_iff (encodeUtf8 text) "foo ".toList false).mp
      (always _ _ _) text "foo".toList 1 (decodeUtf8_eq_some.mpr rfl)
      (by decide) (.inl (Nat.le_refl 1))
  exact absurd (fits.apart (by decide)) (by decide)

end AgentSchedBench.Agent
