import AgentSchedBench.Library.HtmlTokens
import Mathlib.Data.List.Infix

/-!
# The content of titles and styles

A title or a style ends at the first end tag with its name, whatever else its
text may look like.
-/

namespace Html

open RawPlace

/-- No end tag of the element stands in the text. -/
def NoEndTag (element text : List Char) : Prop :=
  ∀ name ending, name.map Char.toLower = element → endsName ending = true →
    ¬ '<' :: '/' :: (name ++ [ending]) <:+: text

theorem NoEndTag.of_append {element front back : List Char}
    (noEndTag : NoEndTag element (front ++ back)) : NoEndTag element front :=
  fun name ending isName ends inside => noEndTag name ending isName ends
    (inside.trans (List.prefix_append front back).isInfix)

namespace RawPlace

/-- What a place says of the characters that have been read, the last one
first. -/
def Trace (read : List Char) : RawPlace → Prop
  | text => True
  | lessThan => ['<'] <+: read
  | endTagOpen => ['/', '<'] <+: read
  | endTagName name => name.reverse ++ ['/', '<'] <+: read

variable {read : List Char} {char : Char}

/-- A character is text, or it ends the name of the end tag. -/
def Follows (element read : List Char) (place : RawPlace) (char : Char)
    (move : Move RawPlace) : Prop :=
  (∃ next shown, move = .text next shown ∧ Trace (char :: read) next) ∨
    ∃ name, place = endTagName name ∧ name.map Char.toLower = element ∧
      endsName char = true

theorem textStep_leads (read shown : List Char) (char : Char) :
    ∃ next more, (textStep char).behind shown = .text next more ∧
      Trace (char :: read) next := by
  rw [textStep]
  split
  · next isLess =>
      exact ⟨lessThan, _, rfl, List.singleton_prefix_cons_iff.mpr isLess.symm⟩
  · exact ⟨text, _, rfl, trivial⟩

theorem step_follows (element : List Char) (place : RawPlace) (char : Char)
    (trace : Trace read place) :
    Follows element read place char (place.step element char) := by
  cases place with
  | text =>
      obtain ⟨next, more, isMove, leads⟩ := textStep_leads read [] char
      refine .inl ⟨next, more, ?_, leads⟩
      rw [← isMove, step, textStep]
      split <;> rfl
  | lessThan =>
      rw [step]
      split
      · next isSlash =>
          exact .inl ⟨_, _, rfl, List.cons_prefix_cons.mpr ⟨isSlash.symm, trace⟩⟩
      · exact .inl (textStep_leads read _ char)
  | endTagOpen =>
      rw [step, endTagOpenStep]
      split
      · exact .inl ⟨_, _, rfl, List.cons_prefix_cons.mpr ⟨rfl, trace⟩⟩
      · exact .inl (textStep_leads read _ char)
  | endTagName name =>
      rw [step, endTagNameStep]
      split
      · refine .inl ⟨_, _, rfl, ?_⟩
        show (name ++ [char]).reverse ++ ['/', '<'] <+: char :: read
        rw [List.reverse_concat]
        exact List.cons_prefix_cons.mpr ⟨rfl, trace⟩
      · split
        · next ends => exact .inr ⟨name, rfl, ends.2, ends.1⟩
        · exact .inl (textStep_leads read _ char)

theorem step_lessThan (element : List Char) (place : RawPlace) :
    ∃ shown, place.step element '<' = .text lessThan shown := by
  cases place with
  | text => exact ⟨_, rfl⟩
  | lessThan => exact ⟨_, rfl⟩
  | endTagOpen => exact ⟨_, rfl⟩
  | endTagName name => exact ⟨_, rfl⟩

end RawPlace

/-- A text without the end tag is content. -/
theorem run_raw {element : List Char} (text : List Char)
    (noEndTag : NoEndTag element text) :
    ∃ (place : RawPlace) (shown : List Char), run (.raw element .text) text =
      (.raw element place, shown.map .char) ∧ Trace text.reverse place := by
  induction text using List.reverseRecOn with
  | nil => exact ⟨.text, [], rfl, trivial⟩
  | append_singleton text char induction =>
      obtain ⟨place, shown, isRun, trace⟩ := induction noEndTag.of_append
      rw [List.reverse_concat]
      rcases step_follows element place char trace with
        ⟨next, more, isMove, leads⟩ | ⟨name, rfl, isName, ends⟩
      · refine ⟨next, shown ++ more, ?_, leads⟩
        rw [run_append, isRun, run, Html.step, isMove, List.map_append]
        exact congrArg (Prod.mk _) (congrArg _ (List.append_nil _))
      · refine absurd ?_ (noEndTag name char isName ends)
        have atEnd : '<' :: '/' :: name <:+ text := by
          rw [← List.reverse_prefix, List.reverse_cons, List.reverse_cons,
            List.append_assoc]
          exact trace
        obtain ⟨front, rfl⟩ := atEnd
        exact ⟨front, [], by simp⟩

/-- Behind its end tag the page goes on. -/
theorem tokensFrom_raw {element text closing : List Char} {endTag : Tag}
    (noEndTag : NoEndTag element text)
    (ends : run (.raw element .lessThan) closing = (.data, [.tag endTag]))
    (behind : List Char) :
    ∃ shown : List Char,
      tokensFrom (.raw element .text) (text ++ '<' :: (closing ++ behind)) =
        shown.map .char ++ .tag endTag :: tokensFrom .data behind := by
  obtain ⟨place, shown, isRun, -⟩ := run_raw text noEndTag
  obtain ⟨more, isMove⟩ := step_lessThan element place
  have less : run (.raw element place) ['<'] =
      (.raw element .lessThan, more.map .char) := by
    rw [run, Html.step, isMove]
    exact congrArg (Prod.mk _) (List.append_nil _)
  refine ⟨shown ++ more, ?_⟩
  rw [tokensFrom_append, isRun, ← List.singleton_append, tokensFrom_append, less,
    tokensFrom_append, ends, List.map_append, List.append_assoc]
  rfl

end Html
