import AgentSchedBench.Library.HtmlTokens
import Mathlib.Data.List.Infix

/-!
# The content of scripts

In the content of a script all that has been read is shown, but for what may
become the end tag.  A text in which each `</` is escaped does not end the
script, but it may leave it escaped twice, where the end tag is text as well:
it does so if it opens a comment that it does not close and names a script in
it.
-/

namespace Html

/-- Each `</` is escaped. -/
def escapeClosing : List Char → List Char
  | '<' :: '/' :: rest => '<' :: '\\' :: '/' :: escapeClosing rest
  | char :: rest => char :: escapeClosing rest
  | [] => []

/-- How deep the content is escaped. -/
inductive Depth where
  | plain
  | once
  | twice
deriving DecidableEq, Repr

namespace ScriptPlace

def depth : ScriptPlace → Depth
  | data | lessThan | endTagOpen | endTagName _ | escapeStart
  | escapeStartDash => .plain
  | escaped | escapedDash | escapedDashDash | escapedLessThan
  | escapedEndTagOpen | escapedEndTagName _ | doubleEscapeStart _ => .once
  | doubleEscaped | doubleEscapedDash | doubleEscapedDashDash
  | doubleEscapedLessThan | doubleEscapeEnd _ => .twice

/-- Is the place outside all end tags? -/
def IsOpen : ScriptPlace → Prop
  | endTagOpen | endTagName _ | escapedEndTagOpen | escapedEndTagName _
  | doubleEscapeEnd _ => False
  | _ => True

/-- The place behind `<`, where a slash would open an end tag. -/
def lessThanOf : Depth → ScriptPlace
  | .plain => lessThan
  | .once => escapedLessThan
  | .twice => doubleEscapedLessThan

/-- The place in the midst of a text. -/
def homeOf : Depth → ScriptPlace
  | .plain => data
  | .once => escaped
  | .twice => doubleEscaped

/-! ## What is shown -/

/-- What was pending and the character are shown or pending. -/
def Shows (read : List Char) : Move ScriptPlace → Prop
  | .text next shown => shown ++ next.pending = read
  | .endTag _ => True

theorem Shows.behind {read : List Char} {move : Move ScriptPlace}
    (shows : Shows read move) (front : List Char) :
    Shows (front ++ read) (move.behind front) := by
  cases move with
  | text next shown =>
      show (front ++ shown) ++ next.pending = front ++ read
      rw [List.append_assoc, show shown ++ next.pending = read from shows]
  | endTag ending => trivial

theorem shownChar_of_alpha {char : Char} (isAlpha : char.isAlpha = true) :
    shownChar char = char := by
  rw [shownChar, if_neg]
  intro isZero
  have isChar : char = Char.ofNat 0 := Char.toNat_inj.mp isZero
  rw [isChar] at isAlpha
  cases isAlpha

theorem shownChar_of_endsName {char : Char} (ends : endsName char = true) :
    shownChar char = char := by
  rw [shownChar, if_neg]
  intro isZero
  have isChar : char = Char.ofNat 0 := Char.toNat_inj.mp isZero
  rw [isChar] at ends
  cases ends

variable (char : Char)

theorem dataStep_shows : Shows [shownChar char] (dataStep char) := by
  rw [dataStep]
  split
  · next isLess => rw [isLess]; rfl
  · rfl

theorem escapedStep_shows : Shows [shownChar char] (escapedStep char) := by
  rw [escapedStep]
  split
  · next isDash => rw [isDash]; rfl
  · split
    · next isLess => rw [isLess]; rfl
    · rfl

theorem doubleEscapedStep_shows :
    Shows [shownChar char] (doubleEscapedStep char) := by
  rw [doubleEscapedStep]
  split
  · next isDash => rw [isDash]; rfl
  · split
    · next isLess => rw [isLess]; rfl
    · rfl

theorem escapeNameStep_shows {next : List Char → ScriptPlace}
    {home : Char → Move ScriptPlace} {script other : ScriptPlace}
    (named : ∀ name, (next name).pending = [])
    (isScript : script.pending = []) (isOther : other.pending = [])
    (homeShows : Shows [shownChar char] (home char)) (name : List Char) :
    Shows [shownChar char] (escapeNameStep next home script other name char) := by
  rw [escapeNameStep]
  split
  · next ends =>
      show [char] ++ ScriptPlace.pending (if _ then _ else _) = _
      rw [shownChar_of_endsName ends]
      split
      · rw [isScript]; rfl
      · rw [isOther]; rfl
  · split
    · next isAlpha =>
        show [char] ++ (next _).pending = _
        rw [named, shownChar_of_alpha isAlpha]
        rfl
    · exact homeShows

theorem endTagOpenStep_shows {endTagName : List Char → ScriptPlace}
    {home : Char → Move ScriptPlace}
    (named : ∀ name, (endTagName name).pending = '<' :: '/' :: name)
    (homeShows : Shows [shownChar char] (home char)) :
    Shows (['<', '/'] ++ [shownChar char]) (endTagOpenStep endTagName home char) := by
  rw [endTagOpenStep]
  split
  · next isAlpha =>
      show [] ++ (endTagName _).pending = _
      rw [named, shownChar_of_alpha isAlpha]
      rfl
  · exact homeShows.behind _

theorem endTagNameStep_shows {endTagName : List Char → ScriptPlace}
    {home : Char → Move ScriptPlace}
    (named : ∀ name, (endTagName name).pending = '<' :: '/' :: name)
    (homeShows : Shows [shownChar char] (home char))
    (element name : List Char) :
    Shows (('<' :: '/' :: name) ++ [shownChar char])
      (endTagNameStep endTagName home element name char) := by
  rw [endTagNameStep]
  split
  · next isAlpha =>
      show [] ++ (endTagName _).pending = _
      rw [named, shownChar_of_alpha isAlpha]
      rfl
  · split
    · trivial
    · exact homeShows.behind _

theorem step_shows (place : ScriptPlace) :
    Shows (place.pending ++ [shownChar char]) (place.step char) := by
  have plain := dataStep_shows char
  have once := escapedStep_shows char
  have twice := doubleEscapedStep_shows char
  have start (name : List Char) :
      Shows [shownChar char] (doubleEscapeStartStep name char) :=
    escapeNameStep_shows char (fun _ => rfl) rfl rfl once name
  cases place with
  | data => exact plain
  | lessThan =>
      rw [step]
      split
      · next isSlash => rw [isSlash]; rfl
      · split
        · next isMark => rw [isMark]; rfl
        · exact plain.behind _
  | endTagOpen => exact endTagOpenStep_shows char (fun _ => rfl) plain
  | endTagName name => exact endTagNameStep_shows char (fun _ => rfl) plain _ name
  | escapeStart =>
      rw [step]
      split
      · next isDash => rw [isDash]; rfl
      · exact plain
  | escapeStartDash =>
      rw [step]
      split
      · next isDash => rw [isDash]; rfl
      · exact plain
  | escaped => exact once
  | escapedDash =>
      rw [step]
      split
      · next isDash => rw [isDash]; rfl
      · exact once
  | escapedDashDash =>
      rw [step]
      split
      · next isDash => rw [isDash]; rfl
      · split
        · next isGreater => rw [isGreater]; rfl
        · exact once
  | escapedLessThan =>
      rw [step]
      split
      · next isSlash => rw [isSlash]; rfl
      · split
        · exact (start []).behind _
        · exact once.behind _
  | escapedEndTagOpen => exact endTagOpenStep_shows char (fun _ => rfl) once
  | escapedEndTagName name =>
      exact endTagNameStep_shows char (fun _ => rfl) once _ name
  | doubleEscapeStart name => exact start name
  | doubleEscaped => exact twice
  | doubleEscapedDash =>
      rw [step]
      split
      · next isDash => rw [isDash]; rfl
      · exact twice
  | doubleEscapedDashDash =>
      rw [step]
      split
      · next isDash => rw [isDash]; rfl
      · split
        · next isGreater => rw [isGreater]; rfl
        · exact twice
  | doubleEscapedLessThan =>
      rw [step]
      split
      · next isSlash => rw [isSlash]; rfl
      · exact twice
  | doubleEscapeEnd name =>
      exact escapeNameStep_shows char (fun _ => rfl) rfl rfl twice name

/-! ## What a character does -/

/-- What a place says of the characters that have been read, the last one
first. -/
def Trace (read : List Char) : ScriptPlace → Prop
  | lessThan | escapedLessThan | doubleEscapedLessThan => ['<'] <+: read
  | escapeStart => ['!', '<'] <+: read
  | escapeStartDash => ['-', '!', '<'] <+: read
  | escaped | doubleEscaped => ¬ ['-'] <+: read
  | escapedDash | doubleEscapedDash =>
      ['-'] <+: read ∧ ¬ ['-', '-'] <+: read
  | escapedDashDash | doubleEscapedDashDash => ['-', '-'] <+: read
  | doubleEscapeStart name =>
      ∃ raw, raw ≠ [] ∧ raw ++ ['<'] <+: read ∧
        raw.reverse.map Char.toLower = name ∧ ∀ char ∈ raw, char.isAlpha = true
  | _ => True

/-- How a character changes the depth. -/
inductive DepthChange (place : ScriptPlace) (char : Char)
    (next : ScriptPlace) : Prop where
  | same (sameDepth : next.depth = place.depth)
  | opens (isPlace : place = escapeStartDash) (isDash : char = '-')
      (isNext : next = escapedDashDash)
  | named (isPlace : place = doubleEscapeStart "script".toList)
      (ends : endsName char = true) (isNext : next = doubleEscaped)
  | closes
      (isPlace : place = escapedDashDash ∨ place = doubleEscapedDashDash)
      (isGreater : char = '>') (isNext : next = data)

/-- What a character does to a place outside all end tags. -/
structure Follows (place : ScriptPlace) (char : Char)
    (next : ScriptPlace) : Prop where
  isOpen : next.IsOpen
  trace : ∀ read, Trace read place → Trace (char :: read) next
  depth : DepthChange place char next

/-- The move leads to a place outside all end tags. -/
def Leads (place : ScriptPlace) (char : Char) (move : Move ScriptPlace) : Prop :=
  ∃ next shown, move = .text next shown ∧ Follows place char next

theorem Leads.behind {place : ScriptPlace} {char : Char}
    {move : Move ScriptPlace} (leads : Leads place char move)
    (front : List Char) : Leads place char (move.behind front) := by
  obtain ⟨next, shown, rfl, follows⟩ := leads
  exact ⟨next, front ++ shown, rfl, follows⟩

theorem notDash_of_endsName {char : Char} (ends : endsName char = true) :
    char ≠ '-' := by
  rintro rfl
  cases ends

section Homes

variable {char : Char} {place : ScriptPlace}

variable (place) in
theorem lessThanOf_follows (isLess : char = '<') :
    Follows place char (lessThanOf place.depth) := by
  rw [isLess]
  refine ⟨?_, fun read _ => ?_, .same ?_⟩ <;> cases place.depth
  · trivial
  · trivial
  · trivial
  · exact List.singleton_prefix_cons_iff.mpr rfl
  · exact List.singleton_prefix_cons_iff.mpr rfl
  · exact List.singleton_prefix_cons_iff.mpr rfl
  · rfl
  · rfl
  · rfl

variable (place) in
theorem homeOf_follows (notDash : char ≠ '-') :
    Follows place char (homeOf place.depth) := by
  have noDash (read : List Char) : ¬ ['-'] <+: char :: read := fun isDash =>
    notDash (List.singleton_prefix_cons_iff.mp isDash).symm
  refine ⟨?_, fun read _ => ?_, .same ?_⟩ <;> cases place.depth
  · trivial
  · trivial
  · trivial
  · trivial
  · exact noDash read
  · exact noDash read
  · rfl
  · rfl
  · rfl

/-- A dash behind something else. -/
theorem dash_follows {next : ScriptPlace} (isDash : char = '-')
    (isNext : next = escapedDash ∧ place.depth = .once ∨
      next = doubleEscapedDash ∧ place.depth = .twice)
    (noDash : ∀ read, Trace read place → ¬ ['-'] <+: read) :
    Follows place char next := by
  have trace (read : List Char) (isTrace : Trace read place) :
      ['-'] <+: '-' :: read ∧ ¬ ['-', '-'] <+: '-' :: read :=
    ⟨List.singleton_prefix_cons_iff.mpr rfl, fun both =>
      noDash read isTrace (List.cons_prefix_cons.mp both).2⟩
  rw [isDash]
  rcases isNext with ⟨rfl, isDepth⟩ | ⟨rfl, isDepth⟩
  · exact ⟨trivial, trace, .same isDepth.symm⟩
  · exact ⟨trivial, trace, .same isDepth.symm⟩

/-- A dash behind a dash. -/
theorem dashDash_follows {next : ScriptPlace} (isDash : char = '-')
    (isNext : next = escapedDashDash ∨ next = doubleEscapedDashDash)
    (dash : ∀ read, Trace read place → ['-'] <+: read)
    (change : DepthChange place char next) : Follows place char next := by
  have trace (read : List Char) (isTrace : Trace read place) :
      ['-', '-'] <+: char :: read :=
    List.cons_prefix_cons.mpr ⟨isDash.symm, dash read isTrace⟩
  rcases isNext with rfl | rfl
  · exact ⟨trivial, trace, change⟩
  · exact ⟨trivial, trace, change⟩

variable (place) in
theorem dataStep_leads (plain : place.depth = .plain) :
    Leads place char (dataStep char) := by
  rw [dataStep]
  split
  · next isLess =>
      have follows := lessThanOf_follows place isLess
      rw [plain] at follows
      exact ⟨lessThan, [], rfl, follows⟩
  · exact ⟨data, _, rfl, trivial, fun _ _ => trivial, .same plain.symm⟩

theorem escapedStep_leads (once : place.depth = .once)
    (noDash : char = '-' → ∀ read, Trace read place → ¬ ['-'] <+: read) :
    Leads place char (escapedStep char) := by
  rw [escapedStep]
  split
  · next isDash =>
      exact ⟨_, _, rfl, dash_follows isDash (.inl ⟨rfl, once⟩) (noDash isDash)⟩
  · next notDash =>
      split
      · next isLess =>
          have follows := lessThanOf_follows place isLess
          rw [once] at follows
          exact ⟨escapedLessThan, [], rfl, follows⟩
      · have follows := homeOf_follows place notDash
        rw [once] at follows
        exact ⟨escaped, _, rfl, follows⟩

theorem doubleEscapedStep_leads (twice : place.depth = .twice)
    (noDash : char = '-' → ∀ read, Trace read place → ¬ ['-'] <+: read) :
    Leads place char (doubleEscapedStep char) := by
  rw [doubleEscapedStep]
  split
  · next isDash =>
      exact ⟨_, _, rfl, dash_follows isDash (.inr ⟨rfl, twice⟩) (noDash isDash)⟩
  · next notDash =>
      split
      · next isLess =>
          have follows := lessThanOf_follows place isLess
          rw [twice] at follows
          exact ⟨doubleEscapedLessThan, _, rfl, follows⟩
      · have follows := homeOf_follows place notDash
        rw [twice] at follows
        exact ⟨doubleEscaped, _, rfl, follows⟩

end Homes

/-- Nothing but a letter or a `<` is in front of these places. -/
theorem noDash_of_less {read : List Char} (less : ['<'] <+: read) :
    ¬ ['-'] <+: read := by
  intro dash
  obtain ⟨rest, rfl⟩ := less
  cases List.singleton_prefix_cons_iff.mp dash

theorem noDash_of_alpha {raw read : List Char} (nonempty : raw ≠ [])
    (isRead : raw ++ ['<'] <+: read)
    (areAlpha : ∀ char ∈ raw, char.isAlpha = true) : ¬ ['-'] <+: read := by
  intro dash
  obtain ⟨rest, rfl⟩ := isRead
  obtain ⟨char, raw, rfl⟩ := List.exists_cons_of_ne_nil nonempty
  have isDash := List.singleton_prefix_cons_iff.mp dash
  have isAlpha := areAlpha char List.mem_cons_self
  rw [← isDash] at isAlpha
  cases isAlpha

theorem doubleEscapeStart_leads (name : List Char) (char : Char) :
    Leads (doubleEscapeStart name) char (doubleEscapeStartStep name char) := by
  rw [doubleEscapeStartStep, escapeNameStep]
  split
  · next ends =>
      have noDash (read : List Char) : ¬ ['-'] <+: char :: read := fun isDash =>
        notDash_of_endsName ends (List.singleton_prefix_cons_iff.mp isDash).symm
      split
      · next isScript =>
          exact ⟨doubleEscaped, _, rfl, trivial, fun read _ => noDash read,
            .named (congrArg doubleEscapeStart isScript) ends rfl⟩
      · exact ⟨escaped, _, rfl, trivial, fun read _ => noDash read, .same rfl⟩
  · split
    · next isAlpha =>
        refine ⟨_, _, rfl, trivial, ?_, .same rfl⟩
        rintro read ⟨raw, nonempty, isRead, isName, areAlpha⟩
        refine ⟨char :: raw, List.cons_ne_nil _ _, ?_, ?_, ?_⟩
        · exact List.cons_prefix_cons.mpr ⟨rfl, isRead⟩
        · rw [List.reverse_cons, List.map_append, isName]
          rfl
        · exact List.forall_mem_cons.mpr ⟨isAlpha, areAlpha⟩
    · refine escapedStep_leads rfl fun _ read trace => ?_
      obtain ⟨raw, nonempty, isRead, -, areAlpha⟩ := trace
      exact noDash_of_alpha nonempty isRead areAlpha

theorem notEndsName_of_alpha {char : Char} (isAlpha : char.isAlpha = true) :
    ¬ endsName char = true := by
  intro ends
  simp only [endsName, isSpace, Bool.or_eq_true, decide_eq_true_iff] at ends
  rcases ends with ((((rfl | rfl) | rfl) | isFeed) | rfl) | rfl
  · cases isAlpha
  · cases isAlpha
  · cases isAlpha
  · have isChar : char = Char.ofNat 12 := Char.toNat_inj.mp isFeed
    rw [isChar] at isAlpha
    cases isAlpha
  · cases isAlpha
  · cases isAlpha

/-- Behind `<` a letter begins a name. -/
theorem nameStart_leads {char : Char} (isAlpha : char.isAlpha = true) :
    Leads escapedLessThan char (doubleEscapeStartStep [] char) := by
  rw [doubleEscapeStartStep, escapeNameStep,
    if_neg (notEndsName_of_alpha isAlpha), if_pos isAlpha]
  refine ⟨_, _, rfl, trivial, fun read less => ?_, .same rfl⟩
  exact ⟨[char], List.cons_ne_nil _ _, List.cons_prefix_cons.mpr ⟨rfl, less⟩, rfl,
    fun other member => List.mem_singleton.mp member ▸ isAlpha⟩

theorem step_leads {place : ScriptPlace} (isOpen : place.IsOpen) {char : Char}
    (harmless : ¬ (char = '/' ∧ place = lessThanOf place.depth)) :
    Leads place char (place.step char) := by
  cases place with
  | data => exact dataStep_leads _ rfl
  | lessThan =>
      rw [step, if_neg fun isSlash => harmless ⟨isSlash, rfl⟩]
      split
      · next isMark =>
          refine ⟨_, _, rfl, trivial, fun read less => ?_, .same rfl⟩
          exact List.cons_prefix_cons.mpr ⟨isMark.symm, less⟩
      · exact (dataStep_leads lessThan rfl).behind _
  | escapeStart =>
      rw [step]
      split
      · next isDash =>
          refine ⟨_, _, rfl, trivial, fun read mark => ?_, .same rfl⟩
          exact List.cons_prefix_cons.mpr ⟨isDash.symm, mark⟩
      · exact dataStep_leads escapeStart rfl
  | escapeStartDash =>
      rw [step]
      split
      · next isDash =>
          refine ⟨_, _, rfl, dashDash_follows isDash (.inl rfl) ?_
            (.opens rfl isDash rfl)⟩
          exact fun read mark => (List.prefix_append ['-'] ['!', '<']).trans mark
      · exact dataStep_leads escapeStartDash rfl
  | escaped => exact escapedStep_leads rfl fun _ _ noDash => noDash
  | escapedDash =>
      rw [step]
      split
      · next isDash =>
          exact ⟨_, _, rfl, dashDash_follows isDash (.inl rfl)
            (fun _ trace => trace.1) (.same rfl)⟩
      · next notDash =>
          exact escapedStep_leads rfl fun isDash => absurd isDash notDash
  | escapedDashDash =>
      rw [step]
      split
      · next isDash =>
          exact ⟨_, _, rfl, dashDash_follows isDash (.inl rfl)
            (fun _ trace => (List.prefix_append ['-'] ['-']).trans trace)
            (.same rfl)⟩
      · next notDash =>
          split
          · next isGreater =>
              exact ⟨_, _, rfl, trivial, fun _ _ => trivial,
                .closes (.inl rfl) isGreater rfl⟩
          · exact escapedStep_leads rfl fun isDash => absurd isDash notDash
  | escapedLessThan =>
      rw [step, if_neg fun isSlash => harmless ⟨isSlash, rfl⟩]
      split
      · next isAlpha => exact (nameStart_leads isAlpha).behind _
      · have leads : Leads escapedLessThan char (escapedStep char) :=
          escapedStep_leads rfl fun _ _ less => noDash_of_less less
        exact leads.behind _
  | doubleEscapeStart name => exact doubleEscapeStart_leads name char
  | doubleEscaped => exact doubleEscapedStep_leads rfl fun _ _ noDash => noDash
  | doubleEscapedDash =>
      rw [step]
      split
      · next isDash =>
          exact ⟨_, _, rfl, dashDash_follows isDash (.inr rfl)
            (fun _ trace => trace.1) (.same rfl)⟩
      · next notDash =>
          exact doubleEscapedStep_leads rfl fun isDash => absurd isDash notDash
  | doubleEscapedDashDash =>
      rw [step]
      split
      · next isDash =>
          exact ⟨_, _, rfl, dashDash_follows isDash (.inr rfl)
            (fun _ trace => (List.prefix_append ['-'] ['-']).trans trace)
            (.same rfl)⟩
      · next notDash =>
          split
          · next isGreater =>
              exact ⟨_, _, rfl, trivial, fun _ _ => trivial,
                .closes (.inr rfl) isGreater rfl⟩
          · exact doubleEscapedStep_leads rfl fun isDash => absurd isDash notDash
  | doubleEscapedLessThan =>
      rw [step, if_neg fun isSlash => harmless ⟨isSlash, rfl⟩]
      exact doubleEscapedStep_leads rfl fun _ _ less => noDash_of_less less
  | endTagOpen => exact isOpen.elim
  | endTagName name => exact isOpen.elim
  | escapedEndTagOpen => exact isOpen.elim
  | escapedEndTagName name => exact isOpen.elim
  | doubleEscapeEnd name => exact isOpen.elim

/-! ## Escaped texts -/

def next (place : ScriptPlace) (char : Char) : ScriptPlace :=
  match place.step char with
  | .text next _ => next
  | .endTag _ => place

/-- The place behind a character of a text that is shown with each `</`
escaped: the backslash leads home, and the slash stays there. -/
def closedNext (place : ScriptPlace) (char : Char) : ScriptPlace :=
  if char = '/' ∧ place = lessThanOf place.depth then homeOf place.depth
  else place.next char

def closedFollow (place : ScriptPlace) (text : List Char) : ScriptPlace :=
  text.foldl closedNext place

theorem closedFollow_append (place : ScriptPlace) (front back : List Char) :
    place.closedFollow (front ++ back) =
      (place.closedFollow front).closedFollow back :=
  List.foldl_append

theorem closedNext_follows {place : ScriptPlace} (isOpen : place.IsOpen)
    (char : Char) : Follows place char (place.closedNext char) := by
  rw [closedNext]
  split
  · next closing =>
      refine homeOf_follows place ?_
      rw [closing.1]
      decide
  · next harmless =>
      obtain ⟨later, shown, isMove, follows⟩ := step_leads isOpen harmless
      rwa [next, isMove]

theorem closedFollow_isOpen {place : ScriptPlace} (isOpen : place.IsOpen)
    (text : List Char) : (place.closedFollow text).IsOpen := by
  induction text generalizing place with
  | nil => exact isOpen
  | cons char text induction =>
      exact induction (closedNext_follows isOpen char).isOpen

theorem step_of_open {place : ScriptPlace} (isOpen : place.IsOpen) {char : Char}
    (harmless : ¬ (char = '/' ∧ place = lessThanOf place.depth)) :
    ∃ shown, place.step char = .text (place.closedNext char) shown ∧
      shown ++ (place.closedNext char).pending =
        place.pending ++ [shownChar char] := by
  obtain ⟨later, shown, isMove, -⟩ := step_leads isOpen harmless
  have isNext : place.closedNext char = later := by
    rw [closedNext, if_neg harmless, next, isMove]
  have shows := step_shows char place
  rw [isMove] at shows
  exact ⟨shown, isNext ▸ isMove, isNext ▸ shows⟩

end ScriptPlace

open ScriptPlace

/-- What a text comes to in a script that it does not end. -/
def Stays (place : ScriptPlace) (text : List Char) (later : ScriptPlace) : Prop :=
  ∃ shown, run (.script place) text = (.script later, shown.map .char) ∧
    shown ++ later.pending = place.pending ++ text.map shownChar

theorem Stays.append {first second third : ScriptPlace} {front back : List Char}
    (before : Stays first front second) (behind : Stays second back third) :
    Stays first (front ++ back) third := by
  obtain ⟨shown, isRun, shows⟩ := before
  obtain ⟨more, isMore, showsMore⟩ := behind
  refine ⟨shown ++ more, ?_, ?_⟩
  · rw [run_append, isRun, isMore, List.map_append]
  · rw [List.append_assoc, showsMore, ← List.append_assoc, shows,
      List.map_append, List.append_assoc]

theorem stays_char {place : ScriptPlace} (isOpen : place.IsOpen) {char : Char}
    (harmless : ¬ (char = '/' ∧ place = lessThanOf place.depth)) :
    Stays place [char] (place.closedNext char) := by
  obtain ⟨shown, isMove, shows⟩ := step_of_open isOpen harmless
  refine ⟨shown, ?_, shows⟩
  rw [run, step, isMove]
  exact congrArg (Prod.mk _) (List.append_nil _)

namespace ScriptPlace

theorem closedNext_lessThan (place : ScriptPlace) :
    place.closedNext '<' = lessThanOf place.depth := by
  cases place <;> rfl

theorem lessThanOf_isOpen (depth : Depth) : (lessThanOf depth).IsOpen := by
  cases depth <;> trivial

theorem homeOf_isOpen (depth : Depth) : (homeOf depth).IsOpen := by
  cases depth <;> trivial

theorem homeOf_trace (depth : Depth) (read : List Char) :
    Trace ('/' :: read) (homeOf depth) := by
  have noDash : ¬ ['-'] <+: '/' :: read := fun isDash =>
    absurd (List.singleton_prefix_cons_iff.mp isDash) (by decide)
  cases depth
  · trivial
  · exact noDash
  · exact noDash

theorem less_of_trace {place : ScriptPlace} {read : List Char}
    (trace : Trace read place) (less : place = lessThanOf place.depth) :
    ['<'] <+: read := by
  rw [less] at trace
  cases isDepth : place.depth <;> rw [isDepth] at trace <;> exact trace

end ScriptPlace

/-- `<\/` is shown and leads home. -/
theorem stays_closing {place : ScriptPlace} (isOpen : place.IsOpen) :
    Stays place ['<', '\\', '/'] (homeOf place.depth) := by
  have less : Stays place ['<'] (lessThanOf place.depth) := by
    rw [← closedNext_lessThan]
    exact stays_char isOpen fun closing => absurd closing.1 (by decide)
  have back : Stays (lessThanOf place.depth) ['\\'] (homeOf place.depth) := by
    have stays : Stays (lessThanOf place.depth) ['\\'] _ :=
      stays_char (lessThanOf_isOpen place.depth) fun closing =>
        absurd closing.1 (by decide)
    cases isDepth : place.depth <;> rw [isDepth] at stays <;> exact stays
  have slash : Stays (homeOf place.depth) ['/'] (homeOf place.depth) := by
    have stays : _ → Stays (homeOf place.depth) ['/'] _ :=
      stays_char (homeOf_isOpen place.depth)
    cases isDepth : place.depth <;> rw [isDepth] at stays <;>
      exact stays (by decide)
  exact (less.append back).append slash

theorem closedFollow_closing (place : ScriptPlace) (rest : List Char) :
    place.closedFollow ('<' :: '/' :: rest) =
      (homeOf place.depth).closedFollow rest := by
  show ((place.closedNext '<').closedNext '/').closedFollow rest = _
  rw [closedNext_lessThan]
  cases place.depth <;> rfl

/-- Behind an escaped closing the script goes on. -/
theorem stays_escapeClosing {place : ScriptPlace} (isOpen : place.IsOpen)
    {read : List Char} (trace : Trace read place) {text : List Char}
    (harmless : ['<'] <+: read → text.head? ≠ some '/') :
    Stays place (escapeClosing text) (place.closedFollow text) := by
  fun_induction escapeClosing text generalizing place read with
  | case1 rest induction =>
      rw [closedFollow_closing]
      refine (stays_closing isOpen).append
        (induction (homeOf_isOpen _) (homeOf_trace _ []) fun less => ?_)
      exact absurd (List.singleton_prefix_cons_iff.mp less) (by decide)
  | case2 char rest notClosing induction =>
      have follows := closedNext_follows isOpen char
      have here : Stays place [char] (place.closedNext char) := by
        refine stays_char isOpen ?_
        rintro ⟨rfl, isLess⟩
        exact harmless (less_of_trace trace isLess) rfl
      refine here.append (induction follows.isOpen (follows.trace read trace) ?_)
      intro less isSlash
      obtain ⟨later, rfl⟩ := List.head?_eq_some_iff.mp isSlash
      exact notClosing later (List.singleton_prefix_cons_iff.mp less).symm rfl
  | case3 => exact ⟨[], rfl, (List.append_nil _).symm⟩

end Html
