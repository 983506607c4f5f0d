import AgentSchedBench.Library.HtmlScripts
import AgentSchedBench.Library.JsonRoundTrip

/-!
# JSON in scripts

In the text of a value `</` stands in strings only, where the slash may be
escaped: the text is read as the same value.
-/

namespace JsonText

open Html

variable {char : Char} {front rest text : List Char}

theorem escapeClosing_cons (notClosing : char = '<' → text.head? ≠ some '/') :
    escapeClosing (char :: text) = char :: escapeClosing text := by
  rw [escapeClosing.eq_def]
  split
  · next same =>
      obtain ⟨rfl, rfl⟩ := List.cons.inj same
      exact absurd rfl (notClosing rfl)
  · next same =>
      obtain ⟨rfl, rfl⟩ := List.cons.inj same
      rfl
  · next same => cases same

theorem escapeClosing_other (notLess : char ≠ '<') (text : List Char) :
    escapeClosing (char :: text) = char :: escapeClosing text :=
  escapeClosing_cons fun isLess => absurd isLess notLess

theorem escapeClosing_append (notSlash : char ≠ '/') (front rest : List Char) :
    escapeClosing (front ++ char :: rest) =
      escapeClosing front ++ escapeClosing (char :: rest) := by
  fun_induction escapeClosing front with
  | case1 front induction =>
      rw [List.cons_append, List.cons_append, escapeClosing, induction]
      rfl
  | case2 first front notClosing induction =>
      rw [List.cons_append, escapeClosing_cons, induction, List.cons_append]
      rintro rfl isSlash
      cases front with
      | nil => exact notSlash (Option.some.inj isSlash)
      | cons second front =>
          exact notClosing front rfl
            (congrArg (· :: front) (Option.some.inj isSlash))
  | case3 => rfl

theorem escapeClosing_plain (noLess : '<' ∉ front) (text : List Char) :
    escapeClosing (front ++ text) = front ++ escapeClosing text := by
  induction front with
  | nil => rfl
  | cons char front induction =>
      rw [List.mem_cons, not_or] at noLess
      rw [List.cons_append, escapeClosing_other (Ne.symm noLess.1),
        induction noLess.2]
      rfl

theorem escapeClosing_self (noLess : '<' ∉ text) : escapeClosing text = text := by
  have plain := escapeClosing_plain noLess []
  rwa [List.append_nil, show escapeClosing [] = [] from rfl, List.append_nil] at plain

/-! ## Strings -/

theorem hexDigit_ne_less (value : Nat) : hexDigit value ≠ '<' := by
  by_cases small : value < 16
  · revert value
    decide
  · have beyond : "0123456789abcdef".toList.length ≤ value := by
      simpa using small
    rw [hexDigit, List.getD_eq_getElem?_getD, List.getElem?_eq_none beyond]
    decide

theorem less_mem_escapeChar (isLess : '<' ∈ escapeChar char) : char = '<' := by
  have twoChars {second : Char} (notLess : second ≠ '<')
      (member : '<' ∈ ['\\', second]) : char = '<' := by
    rcases List.mem_cons.mp member with same | member
    · cases same
    · exact absurd (List.mem_singleton.mp member).symm notLess
  rw [escapeChar] at isLess
  split at isLess
  · exact twoChars (by decide) isLess
  split at isLess
  · exact twoChars (by decide) isLess
  split at isLess
  · exact twoChars (by decide) isLess
  split at isLess
  · exact twoChars (by decide) isLess
  split at isLess
  · exact twoChars (by decide) isLess
  split at isLess
  · exact twoChars (by decide) isLess
  split at isLess
  · exact twoChars (by decide) isLess
  split at isLess
  · have high := hexDigit_ne_less (char.toNat / 16)
    have low := hexDigit_ne_less (char.toNat % 16)
    simp [high.symm, low.symm] at isLess
  · exact (List.mem_singleton.mp isLess).symm

/-- What a character is written as begins with it or with a backslash. -/
theorem escapeChar_head (char : Char) :
    ∃ tail, escapeChar char = char :: tail ∨ escapeChar char = '\\' :: tail := by
  rw [escapeChar]
  split_ifs <;> first | exact ⟨_, .inr rfl⟩ | exact ⟨_, .inl rfl⟩

theorem slash_of_escape (isSlash : (escape text).head? = some '/') :
    text.head? = some '/' := by
  cases text with
  | nil => cases isSlash
  | cons char text =>
      rw [escape, List.flatMap_cons] at isSlash
      obtain ⟨tail, isChar | isBackslash⟩ := escapeChar_head char
      · rw [isChar] at isSlash
        exact isSlash
      · rw [isBackslash] at isSlash
        cases isSlash

theorem escapeClosing_escape_cons
    (notClosing : ∀ tail, char = '<' → rest = '/' :: tail → False) :
    escapeClosing (escape (char :: rest)) =
      escapeChar char ++ escapeClosing (escape rest) := by
  rw [escape, List.flatMap_cons, ← escape]
  by_cases isLess : char = '<'
  · rw [isLess]
    show escapeClosing ('<' :: escape rest) = '<' :: escapeClosing (escape rest)
    refine escapeClosing_cons fun _ isSlash => ?_
    obtain ⟨tail, isRest⟩ := List.head?_eq_some_iff.mp (slash_of_escape isSlash)
    exact notClosing tail isLess isRest
  · exact escapeClosing_plain (fun member => isLess (less_mem_escapeChar member)) _

theorem scanBody_escapeClosing (text rest : List Char) :
    scanBody (escapeClosing (escape text) ++ '"' :: rest) =
      some (escapeClosing (escape text), rest) := by
  fun_induction escapeClosing text with
  | case1 tail induction =>
      show scanBody
        ('<' :: '\\' :: '/' :: (escapeClosing (escape tail) ++ '"' :: rest)) = _
      rw [scanBody_cons (by decide) (by decide), scanBody_backslash, induction]
      rfl
  | case2 char tail notClosing induction =>
      rw [escapeClosing_escape_cons notClosing, List.append_assoc,
        scanBody_escapeChar, induction]
      rfl
  | case3 => rfl

theorem decodeUnits_escapeClosing (text : List Char) :
    decodeUnits (escapeClosing (escape text)) = some (text.map Char.toNat) := by
  fun_induction escapeClosing text with
  | case1 tail induction =>
      show decodeUnits ('<' :: '\\' :: '/' :: escapeClosing (escape tail)) = _
      rw [decodeUnits_cons (by decide) (by decide),
        decodeUnits_backslash (by decide), induction]
      rfl
  | case2 char tail notClosing induction =>
      rw [escapeClosing_escape_cons notClosing, decodeUnits_escapeChar, induction]
      rfl
  | case3 => rfl

theorem stringReads_escapeClosing (value : String) :
    StringReads (escapeClosing (dumpString value)) value := by
  refine ⟨escapeClosing (escape value.toList) ++ ['"'], ?_, fun rest => ?_⟩
  · rw [dumpString, escapeClosing_other (by decide), escapeClosing_append (by decide)]
    rfl
  · rw [List.append_assoc, List.singleton_append, scanString,
      scanBody_escapeClosing]
    show (decodeUnits (escapeClosing (escape value.toList))).bind _ = _
    rw [decodeUnits_escapeClosing]
    show some (String.ofList (joinUnits _), rest) = _
    rw [joinUnits_toNat, String.ofList_toList]

/-! ## Values -/

theorem escapeClosing_moreTexts (texts : List (List Char)) :
    escapeClosing (moreTexts texts) = moreTexts (texts.map escapeClosing) := by
  induction texts with
  | nil => rfl
  | cons text texts induction =>
      rw [moreTexts, escapeClosing_other (by decide), escapeClosing_other (by decide),
        List.map_cons, moreTexts, ← induction]
      cases texts with
      | nil =>
          rw [moreTexts, List.append_nil]
          exact congrArg _ (congrArg _ (List.append_nil _).symm)
      | cons next texts => rw [moreTexts, escapeClosing_append (by decide)]

theorem escapeClosing_joinTexts {ending : Char} (notSlash : ending ≠ '/')
    (notLess : ending ≠ '<') (texts : List (List Char)) :
    escapeClosing (joinTexts texts ++ [ending]) =
      joinTexts (texts.map escapeClosing) ++ [ending] := by
  have single : escapeClosing [ending] = [ending] :=
    escapeClosing_other notLess []
  rw [escapeClosing_append notSlash, single]
  cases texts with
  | nil => rfl
  | cons text texts =>
      rw [joinTexts, List.map_cons, joinTexts, ← escapeClosing_moreTexts]
      cases texts with
      | nil =>
          rw [moreTexts, List.append_nil]
          exact congrArg (· ++ _) (List.append_nil _).symm
      | cons next texts => rw [moreTexts, escapeClosing_append (by decide)]

theorem noLess_dumpInt (value : Int) : '<' ∉ dumpInt value := by
  have noLess (value : Nat) : '<' ∉ dumpNat value := fun member =>
    absurd ((dumpNat_digits value).1 '<' member) (by decide)
  cases value with
  | ofNat value => exact noLess value
  | negSucc value =>
      rw [dumpInt, List.mem_cons, not_or]
      exact ⟨by decide, noLess (value + 1)⟩

theorem noLess_scalar {value : Json} (scanned : scanScalar text = some (value, [])) :
    '<' ∉ text := by
  rcases scanScalar_chars scanned with areNumber | ⟨literal, member, rfl⟩
  · exact fun isLess => absurd (areNumber '<' isLess) (by decide)
  · have noLess : ∀ literal ∈ literals.map Prod.fst, '<' ∉ literal := by decide
    exact noLess literal.1 (List.mem_map_of_mem member)

/-- A value may be written with each `</` escaped. -/
theorem writer_escapeClosing : Writer fun value => escapeClosing (dumps value) where
  null := rfl
  bool value := by cases value <;> rfl
  int value := escapeClosing_self (noLess_dumpInt value)
  float text wellFormed := by
    rw [WellFormed] at wellFormed
    exact escapeClosing_self (noLess_scalar wellFormed)
  str value := stringReads_escapeClosing value
  arr items := by
    rw [dumps, dumpItems_eq, escapeClosing_other (by decide),
      escapeClosing_joinTexts (by decide) (by decide), List.map_map]
    rfl
  obj fields := by
    rw [dumps, dumpFields_eq, escapeClosing_other (by decide),
      escapeClosing_joinTexts (by decide) (by decide), List.map_map]
    have isField : (escapeClosing ∘ fun field : String × Json =>
        dumps (.str field.1) ++ ':' :: ' ' :: dumps field.2) =
          fun field => escapeClosing (dumps (.str field.1)) ++
            ':' :: ' ' :: escapeClosing (dumps field.2) := by
      funext field
      rw [Function.comp_apply, escapeClosing_append (by decide),
        escapeClosing_other (by decide), escapeClosing_other (by decide)]
    rw [isField]

end JsonText
