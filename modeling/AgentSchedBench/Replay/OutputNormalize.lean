import AgentSchedBench.Library.Substitutions
import AgentSchedBench.Trace.Files

/-!
# Normalised outputs

Before two outputs of a tool are compared, what changes from run to run is
replaced in both: time stamps, the paths of processes, temporary paths,
addresses, and the digits that are left.  A normalised output is not changed
by normalising it again.
-/

namespace AgentSchedBench.Replay

open AgentSchedBench.Agent (isSpace)
open AgentSchedBench.Trace (Text)
open Patterns (Pattern)

/-! ## Characters -/

/-- The digits and the characters of words beyond ASCII. -/
structure CharClasses where
  unicodeDigit : Char → Bool
  unicodeWord : Char → Bool
  digit_not_space : ∀ char, unicodeDigit char = true → isSpace char = false

namespace CharClasses

variable (classes : CharClasses)

/-- `\d` -/
def isDigit (char : Char) : Bool :=
  ('0' ≤ char && char ≤ '9') ||
    (128 ≤ char.toNat && classes.unicodeDigit char)

/-- `\w` -/
def isWord (char : Char) : Bool :=
  ('0' ≤ char && char ≤ '9') || ('a' ≤ char && char ≤ 'z') ||
    ('A' ≤ char && char ≤ 'Z') || char == '_' ||
      (128 ≤ char.toNat && classes.unicodeWord char)

end CharClasses

/-- `[0-9a-fA-F]` -/
def isHexDigit (char : Char) : Bool :=
  ('0' ≤ char && char ≤ '9') || ('a' ≤ char && char ≤ 'f') ||
    ('A' ≤ char && char ≤ 'F')

/-- A blank or a quote, at which a path ends. -/
def stopsPath (char : Char) : Bool :=
  isSpace char || "\"'`".toList.contains char

/-! ## Patterns -/

namespace OutputPattern

open Patterns.Pattern

variable (classes : CharClasses)

def word (text : String) : Pattern := .letters text.toList

def anyOf (chars : String) : Pattern := .one chars.toList.contains

def upTo (low high : Char) : Pattern :=
  .one fun char => low ≤ char && char ≤ high

def digits (count : Nat) : Pattern :=
  .many classes.isDigit count (some count)

def someDigits : Pattern := .many classes.isDigit 1 none

def boundary : Pattern := .boundary classes.isWord

def fraction : Pattern := optional (inOrder [word ".", someDigits classes])

/-- `_EPOCH_TS_RE` -/
def epochTs : Pattern :=
  .either
    (inOrder
      [boundary classes, upTo '1' '2', digits classes 9, fraction classes,
        boundary classes])
    (inOrder
      [boundary classes, upTo '1' '2', .many classes.isDigit 12 (some 15),
        boundary classes])

def zone : Pattern :=
  optional
    (.either (word "Z")
      (inOrder
        [anyOf "+-", digits classes 2, .many (· == ':') 0 (some 1),
          digits classes 2]))

/-- `_ISO_TS_RE` -/
def isoTs : Pattern :=
  inOrder
    [boundary classes, digits classes 4, word "-", digits classes 2, word "-",
      digits classes 2, anyOf "T ", upTo '0' '2', digits classes 1, word ":",
      upTo '0' '5', digits classes 1, word ":", upTo '0' '5', digits classes 1,
      fraction classes, zone classes, boundary classes]

/-- `[^\s"'`]+` -/
def pathRest : Pattern := .many (!stopsPath ·) 1 none

/-- `_PROC_PATH_RE` -/
def procPath : Pattern :=
  inOrder
    [word "/proc/", someDigits classes, optional (inOrder [word "/", pathRest])]

/-- `_TMP_PATH_RE` -/
def tmpPath : Pattern := inOrder [word "/tmp/", pathRest]

/-- `_HEX_ADDRESS_RE` -/
def hexAddress : Pattern :=
  inOrder
    [boundary classes, word "0x", .many isHexDigit 1 none, boundary classes]

end OutputPattern

open OutputPattern

variable (classes : CharClasses)

/-- `normalize_tool_output` -/
def normalizeToolOutput (text : Text) : Text :=
  let normalized := (isoTs classes).sub "<TS>".toList text
  let normalized := (epochTs classes).sub "<TS>".toList normalized
  let normalized := (procPath classes).sub "<PROC>".toList normalized
  let normalized := tmpPath.sub "<TMP>".toList normalized
  let normalized := (hexAddress classes).sub "<HEX>".toList normalized
  (someDigits classes).sub "<N>".toList normalized

/-! ## What is left -/

open Patterns.Pattern

section Digits

variable {classes}

theorem isDigit_of_ascii {char : Char} (isDigit : '0' ≤ char ∧ char ≤ '9') :
    classes.isDigit char = true := by
  rw [CharClasses.isDigit, decide_eq_true isDigit.1, decide_eq_true isDigit.2]
  rfl

theorem isSpace_of_isDigit {char : Char}
    (isDigit : classes.isDigit char = true) : isSpace char = false := by
  rw [CharClasses.isDigit, Bool.or_eq_true, Bool.and_eq_true,
    Bool.and_eq_true] at isDigit
  rcases isDigit with ⟨low, high⟩ | ⟨-, isDigit⟩
  · have low : 48 ≤ char.toNat := of_decide_eq_true low
    have high : char.toNat ≤ 57 := of_decide_eq_true high
    rw [← Bool.not_eq_true, isSpace]
    simp
    omega
  · exact classes.digit_not_space char isDigit

theorem stopsPath_of_isDigit {char : Char}
    (isDigit : classes.isDigit char = true) : stopsPath char = false := by
  rw [stopsPath, isSpace_of_isDigit isDigit, Bool.false_or, ← Bool.not_eq_true]
  intro isQuote
  have isQuote : char = '"' ∨ char = '\'' ∨ char = '`' := by simpa using isQuote
  rw [CharClasses.isDigit] at isDigit
  rcases isQuote with rfl | rfl | rfl <;> exact absurd isDigit (by simp)

theorem isDigit_isoTs : (isoTs classes).Contains classes.isDigit :=
  contains_inOrder (List.mem_cons_of_mem _ List.mem_cons_self)
    (contains_many (by decide))

theorem isDigit_upTo : (upTo '1' '2').Contains classes.isDigit := by
  refine contains_one fun char between => isDigit_of_ascii ?_
  obtain ⟨low, high⟩ := by simpa using between
  have zero : '0' ≤ '1' := by decide
  have nine : '2' ≤ '9' := by decide
  exact ⟨Char.le_trans zero low, Char.le_trans high nine⟩

theorem isDigit_epochTs : (epochTs classes).Contains classes.isDigit :=
  contains_either
    (contains_inOrder (List.mem_cons_of_mem _ List.mem_cons_self) isDigit_upTo)
    (contains_inOrder (List.mem_cons_of_mem _ List.mem_cons_self) isDigit_upTo)

theorem isDigit_someDigits : (someDigits classes).Contains classes.isDigit :=
  contains_many (by decide)

theorem isDigit_procPath : (procPath classes).Contains classes.isDigit :=
  contains_inOrder (List.mem_cons_of_mem _ List.mem_cons_self) isDigit_someDigits

theorem isDigit_hexAddress : (hexAddress classes).Contains classes.isDigit :=
  contains_inOrder (List.mem_cons_of_mem _ List.mem_cons_self)
    (contains_letters List.mem_cons_self (isDigit_of_ascii (by decide)))

end Digits

section TemporaryPaths

variable {classes} {before : Option Char} {rest : Text}

/-- The letters in front of a temporary path. -/
def tmpRoot : Text := ['/', 't', 'm', 'p', '/']

theorem contains_tmpPath : tmpPath.Contains (· == '/') :=
  contains_inOrder List.mem_cons_self
    (contains_letters (List.mem_cons_self (l := ['t', 'm', 'p', '/'])) rfl)

theorem found_pathRest {char : Char} (goesOn : stopsPath char = false) :
    pathRest.found before (char :: rest) ≠ [] := by
  refine List.ne_nil_of_mem (a := .plain [char]) (mem_found_many.mpr
    ⟨[char], rest, rfl, rfl, ?_, le_rfl, ?_⟩)
  · rintro _ (_ | ⟨_, ⟨⟩⟩)
    rw [goesOn]
    rfl
  · rintro _ ⟨⟩

theorem found_tmpPath {char : Char} (goesOn : stopsPath char = false) :
    tmpPath.found before (tmpRoot ++ char :: rest) ≠ [] := by
  have goes : pathRest.found (some '/') (char :: rest) ≠ [] :=
    found_pathRest goesOn
  obtain ⟨part, isFound⟩ := List.exists_mem_of_ne_nil _ goes
  rw [← found_inOrder_one] at isFound
  exact List.ne_nil_of_mem
    (mem_found_letters_seq.mpr ⟨_, rfl, part, isFound, rfl⟩)

theorem begins_tmpPath : tmpPath.BeginsUnstopped stopsPath := by
  intro before rest part isFound char isHead
  obtain ⟨back, -, stop, -, rfl⟩ := mem_found_letters_seq.mp isFound
  cases isHead
  decide

theorem begins_hexAddress : (hexAddress classes).BeginsUnstopped stopsPath := by
  intro before rest part isFound char isHead
  obtain ⟨start, back, isStart, rfl, stop, isStop, rfl⟩ :=
    mem_found_seq.mp isFound
  obtain ⟨rfl, -⟩ := mem_found_boundary.mp isStart
  obtain ⟨back, -, stop, -, rfl⟩ := mem_found_letters_seq.mp isStop
  cases isHead
  decide

theorem begins_someDigits : (someDigits classes).BeginsUnstopped stopsPath := by
  intro before rest part isFound char isHead
  obtain ⟨front, back, -, rfl, passes, -⟩ := mem_found_many.mp isFound
  exact stopsPath_of_isDigit (passes char (List.mem_of_mem_head? isHead))

/-- Where no temporary path goes on, none is found. -/
theorem search_tmpPath (stopped : Stopped tmpRoot stopsPath rest) :
    tmpPath.search rest = none := by
  rw [search, searchFrom_eq_none]
  rintro front back rfl
  rw [List.eq_nil_iff_forall_not_mem]
  intro part isFound
  obtain ⟨left, rfl, stop, isStop, -⟩ := mem_found_letters_seq.mp isFound
  rw [found_inOrder_one] at isStop
  obtain ⟨path, others, rfl, -, passes, atLeast, -⟩ := mem_found_many.mp isStop
  obtain ⟨char, path, rfl⟩ := List.exists_cons_of_length_pos atLeast
  have stops := stopped front char (path ++ others) rfl
  have goesOn := passes char List.mem_cons_self
  rw [stops] at goesOn
  cases goesOn

end TemporaryPaths

section Normalized

/-- The text before the last two patterns are replaced. -/
def withoutPaths (text : Text) : Text :=
  let normalized := (isoTs classes).sub "<TS>".toList text
  let normalized := (epochTs classes).sub "<TS>".toList normalized
  let normalized := (procPath classes).sub "<PROC>".toList normalized
  tmpPath.sub "<TMP>".toList normalized

theorem normalizeToolOutput_eq (text : Text) :
    normalizeToolOutput classes text =
      (someDigits classes).sub "<N>".toList
        ((hexAddress classes).sub "<HEX>".toList (withoutPaths classes text)) :=
  rfl

variable {classes}

theorem found_someDigits {before : Option Char} {char : Char} {rest : Text}
    (isDigit : classes.isDigit char = true) :
    (someDigits classes).found before (char :: rest) ≠ [] := by
  refine List.ne_nil_of_mem (a := .plain [char]) (mem_found_many.mpr
    ⟨[char], rest, rfl, rfl, ?_, le_rfl, ?_⟩)
  · rintro _ (_ | ⟨_, ⟨⟩⟩)
    exact isDigit
  · rintro _ ⟨⟩

/-- What is written has no digit. -/
theorem isDigit_normalizeToolOutput (text : Text) :
    ∀ char ∈ normalizeToolOutput classes text, classes.isDigit char = false :=
  not_mem_sub isDigit_someDigits.neverEmpty
    (fun _ _ _ isDigit => found_someDigits isDigit)
    (by
      intro char member
      rw [← Bool.not_eq_true]
      intro isDigit
      rw [CharClasses.isDigit] at isDigit
      have isWritten : char = '<' ∨ char = 'N' ∨ char = '>' := by
        simpa using member
      rcases isWritten with rfl | rfl | rfl <;> exact absurd isDigit (by simp))

theorem stopped_withoutPaths (text : Text) :
    Stopped tmpRoot stopsPath (withoutPaths classes text) :=
  stopped_sub contains_tmpPath.neverEmpty begins_tmpPath
    (fun _ _ _ goesOn => found_tmpPath goesOn) (by simp) (by simp)

/-- No temporary path is left. -/
theorem stopped_normalizeToolOutput (text : Text) :
    Stopped tmpRoot stopsPath (normalizeToolOutput classes text) := by
  have stopped : Stopped tmpRoot stopsPath
      ((hexAddress classes).sub "<HEX>".toList (withoutPaths classes text)) :=
    (stopped_withoutPaths text).sub isDigit_hexAddress.neverEmpty
      begins_hexAddress (by simp) (by simp)
  rw [normalizeToolOutput_eq]
  exact stopped.sub isDigit_someDigits.neverEmpty begins_someDigits (by simp)
    (by simp)

variable (classes)

/-- A normalised output has no digits, and it is not changed by normalising
it again. -/
theorem normalizeToolOutput_idempotent (text : Text) :
    (∀ char ∈ normalizeToolOutput classes text, classes.isDigit char = false) ∧
      normalizeToolOutput classes (normalizeToolOutput classes text) =
        normalizeToolOutput classes text := by
  refine ⟨isDigit_normalizeToolOutput text, ?_⟩
  have noDigit : ∀ char ∈ normalizeToolOutput classes text,
      classes.isDigit char = false := isDigit_normalizeToolOutput text
  have stopped : Stopped tmpRoot stopsPath (normalizeToolOutput classes text) :=
    stopped_normalizeToolOutput text
  generalize normalizeToolOutput classes text = normal at noDigit stopped
  rw [normalizeToolOutput,
    sub_eq_self _ (search_of_contains isDigit_isoTs noDigit),
    sub_eq_self _ (search_of_contains isDigit_epochTs noDigit),
    sub_eq_self _ (search_of_contains isDigit_procPath noDigit),
    sub_eq_self _ (search_tmpPath stopped),
    sub_eq_self _ (search_of_contains isDigit_hexAddress noDigit),
    sub_eq_self _ (search_of_contains isDigit_someDigits noDigit)]

end Normalized

end AgentSchedBench.Replay
