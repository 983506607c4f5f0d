import AgentSchedBench.Replay.Accounting
import AgentSchedBench.Replay.CommandOutcome

/-!
# Exit codes in results

The exit code is the last line of a result, and is read back from there, also
when the result has been cut in the middle.  What the program writes does not
matter: the label that counts is the last one.  A text that ends in the bare
label makes one of the two readers raise.
-/

namespace AgentSchedBench.Replay

open Decimals JsonText TextLines
open Agent (isSpace)
open Trace (Text strip strip_eq_self)

/-! ## The text of an outcome -/

/-- The streams, as far as they are shown. -/
def streamsText (stdout stderr : Text) : Text :=
  (if stdout.isEmpty then [] else stdout ++ ['\n']) ++
    (if stderr.all isSpace then []
    else "STDERR:\n".toList ++ stderr ++ ['\n'])

theorem formatExecResult_eq (stdout stderr : Text) (returncode : Int) :
    formatExecResult stdout stderr returncode =
      streamsText stdout stderr ++ exitCodeText returncode := by
  unfold formatExecResult streamsText
  split <;> split <;> simp [List.intercalate]

def exitCodeLabel : Text := "Exit code:".toList

/-- `int` of a text, and any `repr` -/
def withParseInt (repr : Json → Text) : PythonText where
  repr := repr
  int := parseInt

/-! ## The last occurrence -/

section Rsplit

variable {separator text front back : Text}

theorem eq_of_rsplit (isSplit : rsplit separator text = some (front, back)) :
    text = front ++ separator ++ back := by
  induction text generalizing front with
  | nil =>
      rw [rsplit] at isSplit
      obtain ⟨isEmpty, same⟩ := Option.ite_none_right_eq_some.mp isSplit
      cases same
      rw [isEmpty]
      rfl
  | cons char text induction =>
      rw [rsplit] at isSplit
      split at isSplit
      · next later back' found =>
          cases isSplit
          rw [induction found]
          rfl
      · obtain ⟨rest, isRest, same⟩ := Option.map_eq_some_iff.mp isSplit
        cases same
        exact stripFront_eq_some.mp isRest

/-- A text without the first character of the separator can be skipped. -/
theorem rsplit_skip {first : Char} {tail : Text}
    (absent : first ∉ front)
    (notBehind : rsplit (first :: tail) back = none) :
    rsplit (first :: tail) (front ++ back) = none := by
  induction front with
  | nil => exact notBehind
  | cons char front induction =>
      rw [List.mem_cons, not_or] at absent
      rw [List.cons_append, rsplit, induction absent.2, stripFront,
        if_neg absent.1]
      rfl

theorem rsplit_absent {first : Char} {tail : Text} (absent : first ∉ text) :
    rsplit (first :: tail) text = none := by
  have skipped : rsplit (first :: tail) (text ++ []) = none :=
    rsplit_skip absent rfl
  rwa [List.append_nil] at skipped

/-- The separator that is not found again behind its first character. -/
theorem rsplit_last {first : Char} {tail : Text}
    (last : rsplit (first :: tail) (tail ++ back) = none) :
    rsplit (first :: tail) (front ++ first :: tail ++ back) =
      some (front, back) := by
  induction front with
  | nil =>
      have isFront : stripFront (first :: tail) (first :: (tail ++ back)) =
          some back := stripFront_eq_some.mpr rfl
      rw [List.nil_append, List.cons_append, rsplit, last, isFront]
      rfl
  | cons char front induction =>
      rw [List.append_assoc] at induction
      rw [List.cons_append, List.cons_append, List.append_assoc, rsplit,
        induction]

theorem stripFront_eq (marker text : Text) :
    stripFront marker text =
      if marker.isPrefixOf text then some (text.drop marker.length)
      else none := by
  split
  · next isFront =>
      obtain ⟨rest, rfl⟩ := List.isPrefixOf_iff_prefix.mp isFront
      rw [List.drop_left]
      exact stripFront_eq_some.mpr rfl
  · next notFront =>
      rw [Option.eq_none_iff_forall_ne_some]
      intro rest isRest
      rw [stripFront_eq_some] at isRest
      exact notFront (List.isPrefixOf_iff_prefix.mpr ⟨rest, isRest.symm⟩)

theorem afterLast_cons (char : Char) (marker text : Text) :
    afterLast marker (char :: text) =
      (afterLast marker text).or (stripFront marker (char :: text)) := by
  rw [afterLast, afterLast, List.tails_cons, List.filter_cons, stripFront_eq]
  split
  · rw [List.getLast?_cons, Option.map_some]
    cases ((text.tails.filter fun tail => marker.isPrefixOf tail).getLast?) with
    | none => rfl
    | some found => rfl
  · rw [Option.or_none]

/-- Both ways to split lead to the same last part. -/
theorem afterLast_eq_rsplit {first : Char} {tail : Text} (text : Text) :
    afterLast (first :: tail) text =
      (rsplit (first :: tail) text).map Prod.snd := by
  induction text with
  | nil => rfl
  | cons char text induction =>
      rw [afterLast_cons, induction, rsplit]
      cases rsplit (first :: tail) text with
      | none =>
          rw [Option.map_none, Option.none_or, Option.map_map]
          exact Option.map_id'.symm
      | some found => rfl

end Rsplit

/-! ## Words -/

/-- A text without blanks. -/
def IsWord (text : Text) : Prop :=
  text ≠ [] ∧ ∀ char ∈ text, isSpace char = false

theorem isSpace_of_isLineBoundary {char : Char}
    (isBoundary : isLineBoundary char = true) : isSpace char = true := by
  simp [isLineBoundary] at isBoundary
  simp [isSpace]
  omega

theorem digit_not_space {char : Char} (isDigit : char.isDigit = true) :
    isSpace char = false := by
  have bounds := digit_bounds isDigit
  simp [isSpace]
  omega

theorem isWord_dumpNat (value : Nat) : IsWord (dumpNat value) :=
  ⟨dumpNat_ne_nil value, fun char member =>
    digit_not_space ((dumpNat_digits value).1 char member)⟩

theorem isWord_dumpInt (value : Int) : IsWord (dumpInt value) := by
  cases value with
  | ofNat value => exact isWord_dumpNat value
  | negSucc value =>
      refine ⟨List.cons_ne_nil _ _, ?_⟩
      rw [dumpInt, List.forall_mem_cons]
      exact ⟨by decide, (isWord_dumpNat (value + 1)).2⟩

theorem IsWord.strip_eq {word : Text} (isWord : IsWord word) :
    strip word = word :=
  strip_eq_self
    (fun char isHead => isWord.2 char (List.mem_of_mem_head? isHead))
    (fun char isLast => isWord.2 char (List.mem_of_getLast? isLast))

theorem strip_blank_cons {blank : Char} (isBlank : isSpace blank = true)
    (text : Text) : strip (blank :: text) = strip text := by
  unfold strip
  rw [List.dropWhile_cons_of_pos isBlank]

/-- A line of a label and a word. -/
theorem IsWord.exitLine {word : Text} (isWord : IsWord word) :
    strip (exitCodeLabel ++ ' ' :: word) = exitCodeLabel ++ ' ' :: word ∧
      ∀ char ∈ exitCodeLabel ++ ' ' :: word, isLineBoundary char = false := by
  constructor
  · apply strip_eq_self
    · rintro char ⟨⟩
      decide
    · intro char isLast
      rw [List.append_cons, List.getLast?_append_of_ne_nil _ isWord.1] at isLast
      exact isWord.2 char (List.mem_of_getLast? isLast)
  · have noBoundary : (exitCodeLabel ++ [' ']).any isLineBoundary = false := by
      decide
    have label : ∀ char ∈ exitCodeLabel ++ [' '],
        isLineBoundary char = false := fun char member =>
      Bool.eq_false_iff.mpr (List.any_eq_false.mp noBoundary char member)
    intro char member
    rw [List.append_cons, List.mem_append] at member
    rcases member with inLabel | inWord
    · exact label char inLabel
    · rw [Bool.eq_false_iff]
      intro isBoundary
      have isBlank := isSpace_of_isLineBoundary isBoundary
      rw [isWord.2 char inWord] at isBlank
      cases isBlank

/-! ## Reading back -/

/-- The word on the last line is read. -/
theorem finalExitCode_word (front : Text) {word : Text}
    (isWord : IsWord word) :
    finalExitCode (front ++ '\n' :: (exitCodeLabel ++ ' ' :: word)) =
      parseInt word := by
  have stripped := isWord.exitLine.1
  obtain ⟨lines, same⟩ := splitLines_last
    (List.append_ne_nil_of_right_ne_nil exitCodeLabel
      (List.cons_ne_nil ' ' word)) isWord.exitLine.2 front
  have isLast :
      (((splitLines (front ++ '\n' :: (exitCodeLabel ++ ' ' :: word))).map
          strip).filter fun line => !line.isEmpty).getLast? =
        some (exitCodeLabel ++ ' ' :: word) := by
    rw [same, List.map_append, List.filter_append, List.map_singleton,
      stripped, List.filter_singleton, List.getLast?_append]
    rfl
  have value :
      stripFront "Exit code:".toList (exitCodeLabel ++ ' ' :: word) =
        some (' ' :: word) := stripFront_eq_some.mpr rfl
  have space : isSpace ' ' = true := by decide
  unfold finalExitCode
  simp only [isLast, value, Option.bind_some,
    strip_blank_cons space, isWord.strip_eq]

theorem rsplit_exitCodeLabel (front : Text) {word : Text}
    (isWord : IsWord word) :
    rsplit exitCodeLabel (front ++ exitCodeLabel ++ ' ' :: word) =
      some (front, ' ' :: word) := by
  have label : exitCodeLabel = 'E' :: "xit code:".toList := by decide
  have inWord : rsplit exitCodeLabel word = none := by
    rw [Option.eq_none_iff_forall_ne_some]
    rintro ⟨before, after⟩ isSplit
    have member : ' ' ∈ word := by
      rw [eq_of_rsplit isSplit]
      exact List.mem_append_left after
        (List.mem_append_right before (by decide))
    exact absurd (isWord.2 ' ' member) (by decide)
  have absent : 'E' ∉ "xit code:".toList ++ [' '] := by decide
  rw [label] at inWord ⊢
  apply rsplit_last
  rw [List.append_cons]
  exact rsplit_skip absent inWord

/-- What is read behind the last label. -/
theorem commandExitCode_null (repr : Json → Text) (text : Text) :
    commandExitCode (withParseInt repr) text .null =
      match rsplit exitCodeLabel text with
      | none => .ok none
      | some (_, back) =>
          match splitLines (strip back) with
          | [] => .error .index
          | line :: _ =>
              if strip line = "<missing>".toList then .ok none
              else .ok (parseInt (strip line)) := by
  have label : exitCodeMarker = 'E' :: "xit code:".toList := by decide
  have same : exitCodeLabel = exitCodeMarker := rfl
  rw [commandExitCode, structuredReturncode, same, label, afterLast_eq_rsplit]
  cases rsplit ('E' :: "xit code:".toList) text with
  | none => rfl
  | some found => rfl

/-- The word behind the last label is read. -/
theorem commandExitCode_word (repr : Json → Text) (front : Text) {word : Text}
    (isWord : IsWord word) (notMissing : word ≠ "<missing>".toList) :
    commandExitCode (withParseInt repr)
        (front ++ exitCodeLabel ++ ' ' :: word) .null =
      .ok (parseInt word) := by
  have noBoundary : ∀ char ∈ word, isLineBoundary char = false := by
    intro char inWord
    rw [Bool.eq_false_iff]
    intro isBoundary
    have isBlank := isSpace_of_isLineBoundary isBoundary
    rw [isWord.2 char inWord] at isBlank
    cases isBlank
  have oneLine : splitLines word = [word] := by
    rw [splitLines, splitLinesFrom_line noBoundary, List.reverse_nil,
      List.nil_append, if_neg isWord.1]
  rw [commandExitCode_null, rsplit_exitCodeLabel front isWord]
  dsimp only
  rw [strip_blank_cons (by decide), isWord.strip_eq, oneLine]
  dsimp only
  rw [isWord.strip_eq, if_neg notMissing]

/-- Both readers find this exit code in the text. -/
def ReadsBack (repr : Json → Text) (text : Text) (returncode : Int) : Prop :=
  finalExitCode text = some returncode ∧
    commandExitCode (withParseInt repr) text .null = .ok (some returncode)

theorem exitCodeText_eq_label (returncode : Int) :
    exitCodeText returncode =
      '\n' :: (exitCodeLabel ++ ' ' :: dumpInt returncode) := by
  have front :
      "\nExit code: ".toList = '\n' :: (exitCodeLabel ++ [' ']) := by decide
  unfold exitCodeText
  rw [front, List.cons_append, List.append_assoc, List.singleton_append]

theorem readsBack_append (repr : Json → Text) (front : Text)
    (returncode : Int) :
    ReadsBack repr (front ++ exitCodeText returncode) returncode := by
  have isWord := isWord_dumpInt returncode
  have notMissing : dumpInt returncode ≠ "<missing>".toList := by
    intro same
    have read := parseInt_dumpInt returncode
    rw [same] at read
    simp [parseInt, readDigits] at read
  rw [exitCodeText_eq_label]
  constructor
  · rw [finalExitCode_word front isWord, parseInt_dumpInt]
  · have read := commandExitCode_word repr (front ++ ['\n']) isWord
      notMissing
    rw [parseInt_dumpInt, List.append_assoc, List.append_assoc] at read
    exact read

/-! ## The texts of the agent -/

/-- An exit code that Python writes as text: it has at most 4300 digits. -/
def Writable (returncode : Int) : Prop :=
  (dumpNat returncode.natAbs).length ≤ 4300

/-- The texts that the agent makes of the streams and the exit code of a
command. -/
inductive Formatted (stdout stderr : Text) (returncode : Int) : Text → Prop
  /-- One of several commands. -/
  | whole : Formatted stdout stderr returncode
      (formatExecResult stdout stderr returncode)
  | cut : Formatted stdout stderr returncode
      (truncateOutput (formatExecResult stdout stderr returncode) maxOutput)
  /-- A command that is killed by the resource timeout. -/
  | marked (marker : Text) : Formatted stdout stderr returncode
      (truncateOutput
        (insertBeforeFinalExitCode (formatExecResult stdout stderr returncode)
          marker) maxOutput)

theorem length_exitCodeText_le {returncode : Int}
    (writable : Writable returncode) :
    (exitCodeText returncode).length ≤ maxOutput / 2 := by
  have label : exitCodeLabel.length = 10 := by decide
  have half : maxOutput / 2 = 5000 := rfl
  have digits : (dumpInt returncode).length ≤ 4301 := by
    cases returncode with
    | ofNat value => exact Nat.le_succ_of_le writable
    | negSucc value => exact Nat.succ_le_succ writable
  rw [exitCodeText_eq_label, List.length_cons, List.length_append,
    List.length_cons]
  omega

/-- The exit code is not cut. -/
theorem readsBack_cut (text : Text) {returncode : Int}
    (writable : Writable returncode) :
    ∃ front, truncateOutput (text ++ exitCodeText returncode) maxOutput =
      front ++ exitCodeText returncode :=
  truncateOutput_append (length_exitCodeText_le writable)

/-- The marker stands before the last exit code. -/
theorem insertBefore_formatExecResult (stdout stderr marker : Text)
    (returncode : Int) :
    ∃ front,
      insertBeforeFinalExitCode (formatExecResult stdout stderr returncode)
          marker = front ++ exitCodeText returncode := by
  have isWord := isWord_dumpInt returncode
  have absent : '\n' ∉ exitCodeLabel ++ ' ' :: dumpInt returncode :=
    fun member => absurd (isWord.exitLine.2 '\n' member) (by decide)
  have notBehind :
      rsplit ('\n' :: exitCodeLabel)
        (exitCodeLabel ++ ' ' :: dumpInt returncode) = none :=
    rsplit_absent absent
  have isSplit :
      rsplit ('\n' :: exitCodeLabel)
          (streamsText stdout stderr ++
            '\n' :: (exitCodeLabel ++ ' ' :: dumpInt returncode)) =
        some (streamsText stdout stderr, ' ' :: dumpInt returncode) := by
    rw [← List.cons_append, ← List.append_assoc]
    exact rsplit_last notBehind
  rw [formatExecResult_eq, exitCodeText_eq_label]
  have marker_eq : "\nExit code:".toList = '\n' :: exitCodeLabel := by decide
  rw [insertBeforeFinalExitCode, marker_eq, isSplit]
  dsimp only
  rw [List.append_assoc, List.cons_append]
  exact ⟨_, rfl⟩

theorem readsBack_formatted (repr : Json → Text) {stdout stderr text : Text} {returncode : Int}
    (writable : Writable returncode)
    (formatted : Formatted stdout stderr returncode text) :
    ReadsBack repr text returncode := by
  cases formatted with
  | whole =>
      rw [formatExecResult_eq]
      exact readsBack_append repr _ returncode
  | cut =>
      rw [formatExecResult_eq]
      obtain ⟨front, same⟩ :=
        readsBack_cut (streamsText stdout stderr) writable
      rw [same]
      exact readsBack_append repr front returncode
  | marked marker =>
      obtain ⟨before, isMarked⟩ :=
        insertBefore_formatExecResult stdout stderr marker returncode
      obtain ⟨front, same⟩ := readsBack_cut before writable
      rw [isMarked, same]
      exact readsBack_append repr front returncode

/-! ## Any text -/

/-- The last thing in the text, but for blanks, is the label. -/
def EndsInLabel (text : Text) : Prop :=
  ∃ front blanks, (∀ char ∈ blanks, isSpace char = true) ∧
    text = front ++ exitCodeLabel ++ blanks

theorem strip_eq_nil {text : Text} :
    strip text = [] ↔ ∀ char ∈ text, isSpace char = true := by
  rw [strip, List.reverse_eq_nil_iff, List.dropWhile_eq_nil_iff]
  constructor
  · intro blank char member
    by_contra notBlank
    have kept : text.dropWhile isSpace ≠ [] := by
      rw [Ne, List.dropWhile_eq_nil_iff]
      exact fun all => notBlank (all char member)
    have first := List.head_dropWhile_not isSpace kept
    rw [blank _ (List.mem_reverse.mpr (List.head_mem kept))] at first
    cases first
  · intro blank char member
    exact blank char ((List.dropWhile_sublist isSpace).subset
      (List.mem_reverse.mp member))

/-- One reader raises for a text that ends in the label. -/
theorem commandExitCode_returns_iff (repr : Json → Text) (text : Text) :
    (∃ value, commandExitCode (withParseInt repr) text .null = .ok value) ↔
      ¬ EndsInLabel text := by
  have label : exitCodeLabel = 'E' :: "xit code:".toList := by decide
  constructor
  · rintro ⟨value, returns⟩ ⟨front, blanks, areBlank, rfl⟩
    have noE : 'E' ∉ "xit code:".toList ++ blanks := by
      rw [List.mem_append, not_or]
      exact ⟨by decide, fun member =>
        absurd (areBlank 'E' member) (by decide)⟩
    have notBehind :
        rsplit ('E' :: "xit code:".toList) ("xit code:".toList ++ blanks) =
          none := rsplit_absent noE
    rw [commandExitCode_null, label, rsplit_last notBehind] at returns
    dsimp only at returns
    rw [strip_eq_nil.mpr areBlank] at returns
    cases returns
  · intro notAtEnd
    rw [commandExitCode_null]
    split
    · exact ⟨none, rfl⟩
    · next front back isSplit =>
        split
        · next noLine =>
            rw [splitLines_eq_nil, strip_eq_nil] at noLine
            exact absurd ⟨front, back, noLine, eq_of_rsplit isSplit⟩ notAtEnd
        · split
          · exact ⟨none, rfl⟩
          · exact ⟨_, rfl⟩

/-- The exit code is read back from all texts of the agent, and one reader
raises just for a text that ends in the label. -/
theorem exitCodes_read_iff (repr : Json → Text) :
    (∀ stdout stderr returncode text, Writable returncode →
      Formatted stdout stderr returncode text →
      ReadsBack repr text returncode) ∧
    ∀ text,
      (∃ value, commandExitCode (withParseInt repr) text .null = .ok value) ↔
        ¬ EndsInLabel text :=
  ⟨fun _ _ _ _ writable formatted =>
    readsBack_formatted repr writable formatted,
    commandExitCode_returns_iff repr⟩

theorem bareLabel_raises :
    ¬ ∀ repr text, ∃ value,
      commandExitCode (withParseInt repr) text .null = .ok value := by
  intro returns
  obtain ⟨value, isValue⟩ :=
    returns (fun _ => []) "tests passed\nExit code:".toList
  have raises :
      commandExitCode (withParseInt fun _ => [])
          "tests passed\nExit code:".toList .null = .error .index := rfl
  rw [raises] at isValue
  cases isValue

end AgentSchedBench.Replay
