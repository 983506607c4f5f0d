import AgentSchedBench.Library.HtmlScripts
import Mathlib

/-!
# Comments in scripts

Where a text leaves a script escaped twice can be read off the text: behind a
`<!--` there is no `-->`, and the name of a script stands there as a start tag.
-/

namespace Html

open ScriptPlace

/-- The start tag of a script, up to the end of its name. -/
def NamesScript (opening : List Char) : Prop :=
  ∃ name ending, opening = '<' :: (name ++ [ending]) ∧
    name.map Char.toLower = "script".toList ∧ endsName ending = true

/-- There is no `-->` behind `<!` in the rest. -/
def CommentGoesOn (rest : List Char) : Prop :=
  ¬ ['-', '-', '>'] <:+: '-' :: '-' :: rest

/-- The text opens a comment that it does not close, and names a script in it. -/
def DoubleEscapes (text : List Char) : Prop :=
  ∃ front rest, text = front ++ ['<', '!', '-', '-'] ++ rest ∧
    CommentGoesOn rest ∧ ∃ opening, NamesScript opening ∧ opening <:+: rest

variable {front rest back text read : List Char} {char : Char}
  {place : ScriptPlace}

theorem CommentGoesOn.of_append (goesOn : CommentGoesOn (front ++ back)) :
    CommentGoesOn front := fun closes =>
  goesOn (closes.trans (List.prefix_append ('-' :: '-' :: front) back).isInfix)

theorem CommentGoesOn.concat (goesOn : CommentGoesOn rest)
    (notClosed : ¬ (char = '>' ∧ ['-', '-'] <:+ '-' :: '-' :: rest)) :
    CommentGoesOn (rest ++ [char]) := by
  intro closes
  rcases List.infix_concat_iff.mp
    (show _ <:+: ('-' :: '-' :: rest) ++ [char] from closes) with atEnd | inside
  · rcases List.suffix_concat_iff.mp atEnd with isNil | ⟨dashes, isClosing, atEnd⟩
    · exact absurd isNil (List.cons_ne_nil _ _)
    · have parts : ['-', '-'] ++ ['>'] = dashes ++ [char] := isClosing
      obtain ⟨isDashes, isGreater⟩ := List.append_inj' parts rfl
      exact notClosed ⟨(List.singleton_inj.mp isGreater).symm, isDashes ▸ atEnd⟩
  · exact goesOn inside

/-! ## Places behind a text -/

/-- The place behind a text in a script. -/
def placeBehind (text : List Char) : ScriptPlace := data.closedFollow text

theorem placeBehind_concat (text : List Char) (char : Char) :
    placeBehind (text ++ [char]) = (placeBehind text).closedNext char :=
  closedFollow_append data text [char]

theorem placeBehind_isOpen (text : List Char) : (placeBehind text).IsOpen :=
  @closedFollow_isOpen data trivial text

theorem placeBehind_follows (text : List Char) (char : Char) :
    (placeBehind text).Follows char (placeBehind (text ++ [char])) := by
  rw [placeBehind_concat]
  exact closedNext_follows (placeBehind_isOpen text) char

theorem placeBehind_trace (text : List Char) :
    Trace text.reverse (placeBehind text) := by
  induction text using List.reverseRecOn with
  | nil => trivial
  | append_singleton text char induction =>
      rw [List.reverse_concat]
      exact (placeBehind_follows text char).trace _ induction

/-- Two dashes in an escaped script are behind each other. -/
theorem dashDash_of_trace (isOpen : place.IsOpen) (deep : place.depth ≠ .plain)
    (trace : Trace read place) (dashes : ['-', '-'] <+: read) :
    place = escapedDashDash ∨ place = doubleEscapedDashDash := by
  have dash : ['-'] <+: read := (List.prefix_append ['-'] ['-']).trans dashes
  cases place with
  | data | lessThan | escapeStart | escapeStartDash => exact absurd rfl deep
  | escaped | doubleEscaped => exact absurd dash trace
  | escapedDash | doubleEscapedDash => exact absurd dashes trace.2
  | escapedDashDash => exact .inl rfl
  | doubleEscapedDashDash => exact .inr rfl
  | escapedLessThan | doubleEscapedLessThan => exact absurd dash (noDash_of_less trace)
  | doubleEscapeStart name =>
      obtain ⟨raw, nonempty, isRead, -, areAlpha⟩ := trace
      exact absurd dash (noDash_of_alpha nonempty isRead areAlpha)
  | endTagOpen | endTagName _ | escapedEndTagOpen | escapedEndTagName _
  | doubleEscapeEnd _ => exact isOpen.elim

theorem closedNext_greater
    (isPlace : place = escapedDashDash ∨ place = doubleEscapedDashDash) :
    place.closedNext '>' = data := by
  rcases isPlace with rfl | rfl <;> rfl

/-- As long as the script is escaped, no comment is closed. -/
theorem CommentGoesOn.concat_deep (goesOn : CommentGoesOn rest)
    (isText : text = front ++ ['<', '!', '-', '-'] ++ rest)
    (deep : (placeBehind text).depth ≠ .plain)
    (deepNext : (placeBehind (text ++ [char])).depth ≠ .plain) :
    CommentGoesOn (rest ++ [char]) := by
  refine goesOn.concat ?_
  rintro ⟨rfl, dashes⟩
  have inText : '-' :: '-' :: rest <:+ text := by
    rw [isText]
    exact ⟨front ++ ['<', '!'], by simp⟩
  have isPlace := dashDash_of_trace (placeBehind_isOpen text) deep
    (placeBehind_trace text) (List.reverse_prefix.mpr (dashes.trans inText))
  rw [placeBehind_concat, closedNext_greater isPlace] at deepNext
  exact deepNext rfl

/-- What ends a text and has no mark in it stands behind the mark. -/
theorem suffix_of_not_mem {name : List Char}
    (atEnd : name <:+ front ++ char :: back) (notMember : char ∉ name) :
    name <:+ back := by
  have behind : char :: back <:+ front ++ char :: back := List.suffix_append _ _
  rcases Nat.lt_or_ge back.length name.length with longer | short
  · have inside := List.suffix_of_suffix_length_le behind atEnd longer
    exact absurd (inside.mem List.mem_cons_self) notMember
  · exact List.suffix_of_suffix_length_le atEnd
      ((List.suffix_cons char back).trans behind) short

/-- In an escaped script a comment has been opened, and in one that is escaped
twice a script has been named in it. -/
theorem comment_of_depth (text : List Char)
    (deep : (placeBehind text).depth ≠ .plain) :
    ∃ front rest, text = front ++ ['<', '!', '-', '-'] ++ rest ∧
      CommentGoesOn rest ∧ ((placeBehind text).depth = .twice →
        ∃ opening, NamesScript opening ∧ opening <:+: rest) := by
  induction text using List.reverseRecOn with
  | nil => exact absurd rfl deep
  | append_singleton text char induction =>
      have isOpen := placeBehind_isOpen text
      have trace := placeBehind_trace text
      have later : placeBehind (text ++ [char]) = _ := rfl
      match (placeBehind_follows text char).depth with
      | .same sameDepth =>
          rw [sameDepth] at deep
          obtain ⟨front, rest, isText, goesOn, named⟩ := induction deep
          refine ⟨front, rest ++ [char], ?_, ?_, ?_⟩
          · rw [← List.append_assoc, ← isText]
          · exact goesOn.concat_deep isText deep (sameDepth ▸ deep)
          · rw [sameDepth]
            intro twice
            obtain ⟨opening, isOpening, inside⟩ := named twice
            exact ⟨opening, isOpening,
              inside.trans (List.prefix_append rest [char]).isInfix⟩
      | .opens isPlace isDash isNext =>
          rw [isPlace] at trace
          obtain ⟨front, isFront⟩ := trace
          refine ⟨front.reverse, [], ?_, ?_, ?_⟩
          · rw [isDash, ← List.reverse_reverse text, ← isFront,
              List.reverse_append]
            simp
          · intro closes
            exact absurd closes.length_le (by decide)
          · rw [isNext]
            nofun
      | .named isPlace ends isNext =>
          rw [isPlace] at trace
          have deepBefore : (placeBehind text).depth ≠ .plain := by
            rw [isPlace]
            nofun
          obtain ⟨front, rest, isText, goesOn, -⟩ := induction deepBefore
          obtain ⟨raw, nonempty, isRead, isName, areAlpha⟩ := trace
          refine ⟨front, rest ++ [char], ?_, ?_, fun _ => ?_⟩
          · rw [← List.append_assoc, ← isText]
          · exact goesOn.concat_deep isText deepBefore deep
          · refine ⟨'<' :: (raw.reverse ++ [char]), ⟨_, _, rfl, isName, ends⟩, ?_⟩
            have atEnd : '<' :: raw.reverse <:+
                (front ++ ['<', '!', '-']) ++ '-' :: rest := by
              rw [← List.reverse_prefix, List.reverse_cons, List.reverse_reverse]
              have isText' : (front ++ ['<', '!', '-']) ++ '-' :: rest = text := by
                rw [isText]
                simp
              rwa [isText']
            have behind := suffix_of_not_mem atEnd ?_
            · obtain ⟨before, isRest⟩ := behind
              exact ⟨before, [], by rw [← isRest]; simp⟩
            · intro member
              rcases List.mem_cons.mp member with isLess | inName
              · cases isLess
              · have isAlpha := areAlpha '-' (List.mem_reverse.mp inName)
                cases isAlpha
      | .closes isPlace isGreater isNext =>
          rw [isNext] at deep
          exact absurd rfl deep

/-! ## Places behind a comment -/

theorem depth_of_comment (front : List Char) :
    placeBehind (front ++ ['<', '!', '-', '-']) = escapedDashDash ∨
      placeBehind (front ++ ['<', '!', '-', '-']) = doubleEscapedDashDash := by
  rw [placeBehind, closedFollow_append]
  show ((((data.closedFollow front).closedNext '<').closedNext '!').closedNext
      '-').closedNext '-' = _ ∨
    ((((data.closedFollow front).closedNext '<').closedNext '!').closedNext
      '-').closedNext '-' = _
  rw [closedNext_lessThan]
  cases (data.closedFollow front).depth
  · exact .inl rfl
  · exact .inl rfl
  · exact .inr rfl

theorem comment_follows (front rest : List Char) (char : Char) :
    (placeBehind (front ++ ['<', '!', '-', '-'] ++ rest)).Follows char
      (placeBehind (front ++ ['<', '!', '-', '-'] ++ (rest ++ [char]))) := by
  rw [← List.append_assoc]
  exact placeBehind_follows _ char

/-- A script stays escaped as long as the comment goes on. -/
theorem deep_of_comment (front rest : List Char)
    (goesOn : CommentGoesOn rest) :
    (placeBehind (front ++ ['<', '!', '-', '-'] ++ rest)).depth ≠ .plain := by
  induction rest using List.reverseRecOn with
  | nil =>
      rw [List.append_nil]
      rcases depth_of_comment front with isPlace | isPlace
      · rw [isPlace]; nofun
      · rw [isPlace]; nofun
  | append_singleton rest char induction =>
      have deep := induction goesOn.of_append
      have trace := placeBehind_trace (front ++ ['<', '!', '-', '-'] ++ rest)
      match (comment_follows front rest char).depth with
      | .same sameDepth => rwa [sameDepth]
      | .opens isPlace _ _ =>
          rw [isPlace] at deep
          exact absurd rfl deep
      | .named _ _ isNext =>
          rw [isNext]
          nofun
      | .closes isPlace isGreater _ =>
          refine absurd ?_ goesOn
          have dashes : ['-', '-'] <+:
              (front ++ ['<', '!', '-', '-'] ++ rest).reverse := by
            rcases isPlace with isPlace | isPlace
            · rwa [isPlace] at trace
            · rwa [isPlace] at trace
          have inText : '-' :: '-' :: rest <:+
              front ++ ['<', '!', '-', '-'] ++ rest :=
            ⟨front ++ ['<', '!'], by simp⟩
          have atEnd : ['-', '-'] <:+ front ++ ['<', '!', '-', '-'] ++ rest :=
            List.reverse_prefix.mp dashes
          obtain ⟨before, isRest⟩ :=
            List.suffix_of_suffix_length_le atEnd inText (by simp)
          rw [isGreater]
          exact ⟨before, [], by
            rw [← List.cons_append, ← List.cons_append, ← isRest]
            simp⟩

/-- A script that is escaped twice stays so as long as the comment goes on. -/
theorem twice_of_comment {front first : List Char} (second : List Char)
    (twice :
      (placeBehind (front ++ ['<', '!', '-', '-'] ++ first)).depth = .twice)
    (goesOn : CommentGoesOn (first ++ second)) :
    (placeBehind (front ++ ['<', '!', '-', '-'] ++ (first ++ second))).depth =
      .twice := by
  induction second using List.reverseRecOn with
  | nil => rwa [List.append_nil]
  | append_singleton second char induction =>
      rw [← List.append_assoc] at goesOn
      have twiceBefore := induction goesOn.of_append
      have deep := deep_of_comment front _ goesOn
      rw [← List.append_assoc first]
      match (comment_follows front (first ++ second) char).depth with
      | .same sameDepth => rwa [sameDepth]
      | .opens isPlace _ _ =>
          rw [isPlace] at twiceBefore
          cases twiceBefore
      | .named _ _ isNext =>
          rw [isNext]
          rfl
      | .closes _ _ isNext =>
          rw [isNext] at deep
          exact absurd rfl deep

theorem alpha_of_toLower {char : Char} (isAlpha : char.toLower.isAlpha = true) :
    char.isAlpha = true := by
  rw [Char.toLower] at isAlpha
  split at isAlpha
  · next isUpper =>
      rw [Char.isAlpha, Bool.or_eq_true]
      refine .inl ?_
      simpa [Char.isUpper] using isUpper
  · exact isAlpha

theorem alpha_ne_slash {char : Char} (isAlpha : char.isAlpha = true) :
    char ≠ '/' := by
  rintro rfl
  cases isAlpha

theorem closedFollow_name {name raw : List Char}
    (areAlpha : ∀ char ∈ raw, char.isAlpha = true) :
    (doubleEscapeStart name).closedFollow raw =
      doubleEscapeStart (name ++ raw.map Char.toLower) := by
  induction raw generalizing name with
  | nil => rw [List.map_nil, List.append_nil]; rfl
  | cons char raw induction =>
      obtain ⟨isAlpha, areAlpha⟩ := List.forall_mem_cons.mp areAlpha
      have isNext : (doubleEscapeStart name).closedNext char =
          doubleEscapeStart (name ++ [char.toLower]) := by
        rw [closedNext, if_neg fun closing => alpha_ne_slash isAlpha closing.1,
          next, ScriptPlace.step, doubleEscapeStartStep, escapeNameStep,
          if_neg (notEndsName_of_alpha isAlpha), if_pos isAlpha]
      show ((doubleEscapeStart name).closedNext char).closedFollow raw = _
      rw [isNext, induction areAlpha, List.append_assoc]
      rfl

/-- The start tag of a script, which is named in an escaped script. -/
theorem closedFollow_opening {opening : List Char}
    (isOpening : NamesScript opening)
    (once : place.depth = .once) : place.closedFollow opening = doubleEscaped := by
  obtain ⟨name, ending, rfl, isName, ends⟩ := isOpening
  have areAlpha : ∀ char ∈ name, char.isAlpha = true := by
    intro char member
    have lower : char.toLower ∈ "script".toList := by
      rw [← isName]
      exact List.mem_map_of_mem member
    have letters : "script".toList.all Char.isAlpha = true := by decide
    exact alpha_of_toLower (List.all_eq_true.mp letters _ lower)
  cases name with
  | nil => cases isName
  | cons first raw =>
      obtain ⟨isAlpha, areAlpha⟩ := List.forall_mem_cons.mp areAlpha
      have isStart : escapedLessThan.closedNext first =
          doubleEscapeStart [first.toLower] := by
        rw [closedNext, if_neg fun closing => alpha_ne_slash isAlpha closing.1,
          next, ScriptPlace.step, if_neg (alpha_ne_slash isAlpha), if_pos isAlpha,
          doubleEscapeStartStep, escapeNameStep,
          if_neg (notEndsName_of_alpha isAlpha), if_pos isAlpha]
        rfl
      have isEnd : (doubleEscapeStart "script".toList).closedNext ending =
          doubleEscaped := by
        rw [closedNext, if_neg (fun closing => by cases closing.2), next,
          ScriptPlace.step,
          doubleEscapeStartStep, escapeNameStep, if_pos ends, if_pos rfl]
      show ((place.closedNext '<').closedNext first).closedFollow (raw ++ [ending]) = _
      rw [closedNext_lessThan, once]
      show (escapedLessThan.closedNext first).closedFollow (raw ++ [ending]) = _
      rw [isStart, closedFollow_append, closedFollow_name areAlpha]
      show (doubleEscapeStart (List.map Char.toLower (first :: raw))).closedNext
        ending = _
      rw [isName, isEnd]

/-- A text leaves a script escaped twice if it double-escapes it. -/
theorem depth_iff (text : List Char) :
    (placeBehind text).depth = .twice ↔ DoubleEscapes text := by
  constructor
  · intro twice
    obtain ⟨front, rest, isText, goesOn, named⟩ :=
      comment_of_depth text (by rw [twice]; nofun)
    exact ⟨front, rest, isText, goesOn, named twice⟩
  · rintro ⟨front, rest, rfl, goesOn, opening, isOpening, before, behind, rfl⟩
    have goesOnBefore : CommentGoesOn before :=
      (goesOn.of_append).of_append
    have deep := deep_of_comment front before goesOnBefore
    rw [List.append_assoc before]
    cases isDepth : (placeBehind (front ++ ['<', '!', '-', '-'] ++ before)).depth with
    | plain => exact absurd isDepth deep
    | twice =>
        rw [List.append_assoc] at goesOn
        exact twice_of_comment _ isDepth goesOn
    | once =>
        have named : placeBehind
            (front ++ ['<', '!', '-', '-'] ++ (before ++ opening)) =
              doubleEscaped := by
          rw [← List.append_assoc, placeBehind, closedFollow_append]
          exact closedFollow_opening isOpening isDepth
        rw [← List.append_assoc before]
        exact twice_of_comment behind (by rw [named]; rfl) goesOn

/-! ## The end of the script -/

/-- The end tag of a script. -/
def endScript : Tag := ⟨true, "script".toList, []⟩

def endScriptText : List Char := "</script>".toList

theorem stays_data (text : List Char) :
    Stays data (escapeClosing text) (placeBehind text) :=
  @stays_escapeClosing data trivial [] trivial text fun less =>
    absurd less.length_le (by decide)

theorem stays_lessThan (isOpen : place.IsOpen) :
    Stays place ['<'] (lessThanOf place.depth) := by
  rw [← closedNext_lessThan]
  exact stays_char isOpen fun closing => absurd closing.1 (by decide)

/-- Outside a double escape the end tag ends the script. -/
theorem tokensFrom_endScript (isOpen : place.IsOpen)
    (notTwice : place.depth ≠ .twice) (behind : List Char) :
    tokensFrom (.script place) (endScriptText ++ behind) =
      place.pending.map .char ++ .tag endScript :: tokensFrom .data behind := by
  obtain ⟨shown, isRun, shows⟩ := stays_lessThan isOpen
  have ends : run (.script (lessThanOf place.depth)) "/script>".toList =
      (.data, [.tag endScript]) := by
    cases isDepth : place.depth with
    | plain => rfl
    | once => rfl
    | twice => exact absurd isDepth notTwice
  have isShown : shown = place.pending := by
    have isPending : (lessThanOf place.depth).pending = ['<'] := by
      cases isDepth : place.depth with
      | plain => rfl
      | once => rfl
      | twice => exact absurd isDepth notTwice
    rw [isPending] at shows
    exact List.append_cancel_right shows
  show tokensFrom (.script place) (['<'] ++ ("/script>".toList ++ behind)) = _
  rw [tokensFrom_append, isRun, tokensFrom_append, ends, isShown]
  rfl

/-- In a double escape it is text. -/
theorem stays_endScript (isOpen : place.IsOpen) (twice : place.depth = .twice) :
    Stays place endScriptText escaped := by
  have less := stays_lessThan isOpen
  rw [twice] at less
  have ends : Stays doubleEscapedLessThan "/script>".toList escaped :=
    ⟨"/script>".toList, rfl, rfl⟩
  exact less.append ends

/-- The text is the content of the script, and what is behind the end tag is
read as if it stood alone. -/
theorem script_ends {text : List Char} (notTwice : ¬ DoubleEscapes text)
    (clean : (escapeClosing text).map shownChar = escapeClosing text)
    (behind : List Char) :
    tokensFrom (.script data) (escapeClosing text ++ (endScriptText ++ behind)) =
      (escapeClosing text).map .char ++
        .tag endScript :: tokensFrom .data behind := by
  obtain ⟨shown, isRun, shows⟩ := stays_data text
  rw [tokensFrom_append, isRun, tokensFrom_endScript (placeBehind_isOpen text)
    (fun twice => notTwice ((depth_iff text).mp twice)), ← List.append_assoc,
    ← List.map_append, shows, clean]
  rfl

/-- The content goes on behind the end tag. -/
theorem script_goes_on {text : List Char} (twice : DoubleEscapes text)
    (clean : (escapeClosing text).map shownChar = escapeClosing text)
    (behind : List Char) :
    ∃ more, (contentOf (tokensFrom (.script data)
      (escapeClosing text ++ (endScriptText ++ behind)))).1 =
        escapeClosing text ++ (endScriptText ++ more) := by
  obtain ⟨shown, isRun, shows⟩ := (stays_data text).append
    (stays_endScript (placeBehind_isOpen text) ((depth_iff text).mpr twice))
  have isShown : shown = escapeClosing text ++ endScriptText := by
    rw [List.map_append, clean] at shows
    exact (List.append_nil shown).symm.trans shows
  refine ⟨(contentOf (tokensFrom (.script escaped) behind)).1, ?_⟩
  rw [← List.append_assoc, tokensFrom_append, isRun, contentOf_append, isShown,
    List.append_assoc]

end Html
