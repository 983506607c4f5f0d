import AgentSchedBench.Library.JsonText

/-!
# JSON round trip

What is written is read again.  A text that is read as an object ends where
the object ends: no proper prefix of it is read.  Beyond printable ASCII the
characters of the text are those of the strings of the value.
-/

namespace JsonText

/-! ## Blanks -/

section Blanks

variable {text rest more : List Char}

theorem skipWhitespace_append (nonempty : skipWhitespace text ≠ []) :
    skipWhitespace (text ++ more) = skipWhitespace text ++ more := by
  apply (takeWhile_append_stop ?_).2
  intro char member
  cases isText : text.dropWhile isWhitespace with
  | nil => exact absurd isText nonempty
  | cons first tail =>
      rw [isText] at member
      cases member
      have failed := List.head_dropWhile_not isWhitespace (by
        rw [isText]
        nofun)
      simpa [isText] using failed

theorem skipWhitespace_cons {char : Char}
    (notBlank : isWhitespace char = false) (rest : List Char) :
    skipWhitespace (char :: rest) = char :: rest :=
  List.dropWhile_cons_of_neg (by simp [notBlank])

theorem whitespace_stops {char : Char} (blank : isWhitespace char = true) :
    isNumberChar char = false := by
  simp only [isWhitespace, Bool.or_eq_true, beq_iff_eq] at blank
  rcases blank with ((rfl | rfl) | rfl) | rfl <;> decide

/-- Blanks, and what ends an item after them, end a number. -/
theorem stops_of_skipWhitespace {char : Char}
    (skipped : skipWhitespace text = char :: rest)
    (stops : isNumberChar char = false) : Stops (text ++ more) := by
  intro first member
  cases text with
  | nil => cases skipped
  | cons head tail =>
      cases member
      cases blank : isWhitespace first with
      | true => exact whitespace_stops blank
      | false =>
          rw [skipWhitespace_cons blank] at skipped
          cases skipped
          exact stops

end Blanks

/-! ## Values -/

/-- The first character of a scalar. -/
theorem scanScalar_head {text : List Char} {scanned : Json × List Char}
    (isScalar : scanScalar text = some scanned) :
    ∃ char tail, text = char :: tail ∧
      (char.isDigit = true ∨ char ∈ "-ntfNI".toList) := by
  rw [scanScalar] at isScalar
  split at isScalar
  · next isNumber =>
      rw [scanNumber.eq_def] at isNumber
      split at isNumber
      · exact ⟨'-', _, rfl, Or.inr (by decide)⟩
      · obtain ⟨char, tail, isText, isDigit⟩ := scanUnsigned_head isNumber
        exact ⟨char, tail, isText, Or.inl isDigit⟩
  · obtain ⟨literal, member, rfl, _⟩ := literal_of_scanLiteral isScalar
    simp only [literals, List.mem_cons, List.not_mem_nil, or_false] at member
    rcases member with rfl | rfl | rfl | rfl | rfl | rfl <;>
      exact ⟨_, _, rfl, Or.inr (by decide)⟩

/-- A scalar is no object. -/
theorem scanScalar_isObj {text rest : List Char} {value : Json}
    (isScalar : scanScalar text = some (value, rest)) :
    value.isObj = false := by
  have unsigned {negative : Bool} {text : List Char}
      (isNumber : scanUnsigned negative text = some (value, rest)) :
      value.isObj = false := by
    obtain ⟨_, _, same⟩ := Option.map_eq_some_iff.mp isNumber
    cases same
    rw [numberValue]
    split <;> rfl
  rw [scanScalar] at isScalar
  split at isScalar
  · next isNumber =>
      cases isScalar
      rw [scanNumber.eq_def] at isNumber
      split at isNumber <;> exact unsigned isNumber
  · obtain ⟨literal, member, _, rfl⟩ := literal_of_scanLiteral isScalar
    simp only [literals, List.mem_cons, List.not_mem_nil, or_false] at member
    rcases member with rfl | rfl | rfl | rfl | rfl | rfl <;> rfl

/-- The first character of a value is no blank, and ends no list. -/
theorem scanOnce_head {fuel : Nat} {text : List Char}
    {scanned : Json × List Char}
    (isValue : scanOnce fuel text = some scanned) :
    ∃ char tail, text = char :: tail ∧ isWhitespace char = false ∧
      char ≠ ']' := by
  cases fuel with
  | zero => cases isValue
  | succ fuel =>
      cases text with
      | nil => cases isValue
      | cons char tail =>
          refine ⟨char, tail, rfl, ?_⟩
          rw [scanOnce] at isValue
          split at isValue
          · next isQuote =>
              rw [isQuote]
              decide
          split at isValue
          · next isBrace =>
              rw [isBrace]
              decide
          split at isValue
          · next isBracket =>
              rw [isBracket]
              decide
          · obtain ⟨first, _, same, isFirst⟩ := scanScalar_head isValue
            cases same
            rcases isFirst with isDigit | listed
            · constructor
              · by_contra blank
                rw [Bool.not_eq_false] at blank
                have stops := (not_isNumberChar (whitespace_stops blank)).1
                rw [isDigit] at stops
                cases stops
              · rintro rfl
                cases isDigit
            · have plain :
                  ("-ntfNI".toList.all fun char =>
                    !isWhitespace char && char != ']') = true := by
                decide
              simpa using List.all_eq_true.mp plain char listed

theorem scanItems_nonempty {fuel : Nat} {scanned : List Json × List Char} :
    scanItems fuel [] ≠ some scanned := by
  intro isItems
  cases fuel with
  | zero => cases isItems
  | succ fuel =>
      rw [scanItems] at isItems
      obtain ⟨_, isValue, _⟩ := Option.bind_eq_some_iff.mp isItems
      obtain ⟨_, _, same, _⟩ := scanOnce_head isValue
      cases same

theorem scanFields_nonempty {fuel : Nat}
    {scanned : List (String × Json) × List Char} :
    scanFields fuel [] ≠ some scanned := by
  intro isFields
  cases fuel <;> cases isFields

/-- What the reader does with a value, its items or its fields. -/
structure ReadsOn (fuel : Nat) : Prop where
  value :
    ∀ fuel' text value rest more,
      scanOnce fuel text = some (value, rest) → fuel ≤ fuel' →
        (Stops (rest ++ more) ∨ value.isObj = true) →
          scanOnce fuel' (text ++ more) = some (value, rest ++ more)
  items :
    ∀ fuel' text items rest more,
      scanItems fuel text = some (items, rest) → fuel ≤ fuel' →
        scanItems fuel' (text ++ more) = some (items, rest ++ more)
  fields :
    ∀ fuel' text fields rest more,
      scanFields fuel text = some (fields, rest) → fuel ≤ fuel' →
        scanFields fuel' (text ++ more) = some (fields, rest ++ more)

section ReadsOn

variable {fuel : Nat} {text rest : List Char}

theorem scanItems_append (reads : ReadsOn fuel) {fuel' : Nat}
    {items : List Json} {rest : List Char}
    (scanned : scanItems (fuel + 1) text = some (items, rest))
    (enough : fuel ≤ fuel') (more : List Char) :
    scanItems (fuel' + 1) (text ++ more) = some (items, rest ++ more) := by
  rw [scanItems] at scanned ⊢
  obtain ⟨⟨item, afterItem⟩, isItem, scanned⟩ :=
    Option.bind_eq_some_iff.mp scanned
  dsimp only at scanned
  split at scanned
  · next tail skipped =>
      cases scanned
      rw [reads.value fuel' _ _ _ more isItem enough
        (Or.inl (stops_of_skipWhitespace skipped (by decide)))]
      rw [Option.bind_eq_bind, Option.bind_some]
      dsimp only
      rw [skipWhitespace_append (by rw [skipped]; rintro ⟨⟩), skipped]
      rfl
  · next tail skipped =>
      obtain ⟨⟨others, _⟩, isOthers, same⟩ :=
        Option.bind_eq_some_iff.mp scanned
      cases same
      have nonempty : skipWhitespace tail ≠ [] := by
        intro isEmpty
        rw [isEmpty] at isOthers
        exact scanItems_nonempty isOthers
      rw [reads.value fuel' _ _ _ more isItem enough
        (Or.inl (stops_of_skipWhitespace skipped (by decide)))]
      rw [Option.bind_eq_bind, Option.bind_some]
      dsimp only
      rw [skipWhitespace_append (by rw [skipped]; rintro ⟨⟩), skipped]
      show (scanItems fuel' (skipWhitespace (tail ++ more))).bind _ = _
      rw [skipWhitespace_append nonempty,
        reads.items fuel' _ _ _ more isOthers enough]
      rfl
  · cases scanned

theorem scanFields_append (reads : ReadsOn fuel) {fuel' : Nat}
    {fields : List (String × Json)}
    (scanned : scanFields (fuel + 1) text = some (fields, rest))
    (enough : fuel ≤ fuel') (more : List Char) :
    scanFields (fuel' + 1) (text ++ more) = some (fields, rest ++ more) := by
  rw [scanFields.eq_def] at scanned
  split at scanned
  · next same tail sameFuel =>
      cases sameFuel
      rw [List.cons_append, scanFields]
      obtain ⟨⟨name, afterName⟩, isName, scanned⟩ :=
        Option.bind_eq_some_iff.mp scanned
      dsimp only at scanned
      split at scanned
      · next afterColon skippedColon =>
          obtain ⟨⟨value, afterValue⟩, isValue, scanned⟩ :=
            Option.bind_eq_some_iff.mp scanned
          have valueNonempty : skipWhitespace afterColon ≠ [] := by
            intro isEmpty
            rw [isEmpty] at isValue
            obtain ⟨_, _, same, _⟩ := scanOnce_head isValue
            cases same
          rw [scanString_append isName]
          rw [Option.bind_eq_bind, Option.bind_some]
          dsimp only
          rw [skipWhitespace_append (by rw [skippedColon]; rintro ⟨⟩),
            skippedColon]
          show (scanOnce fuel' (skipWhitespace (afterColon ++ more))).bind
            _ = _
          rw [skipWhitespace_append valueNonempty]
          dsimp only at scanned
          split at scanned
          · next skipped =>
              cases scanned
              rw [reads.value fuel' _ _ _ more isValue enough
                (Or.inl (stops_of_skipWhitespace skipped (by decide)))]
              rw [Option.bind_eq_bind, Option.bind_some]
              dsimp only
              rw [skipWhitespace_append (by rw [skipped]; rintro ⟨⟩), skipped]
              rfl
          · next tail skipped =>
              obtain ⟨⟨others, _⟩, isOthers, same⟩ :=
                Option.bind_eq_some_iff.mp scanned
              cases same
              have nonempty : skipWhitespace tail ≠ [] := by
                intro isEmpty
                rw [isEmpty] at isOthers
                exact scanFields_nonempty isOthers
              rw [reads.value fuel' _ _ _ more isValue enough
                (Or.inl (stops_of_skipWhitespace skipped (by decide)))]
              rw [Option.bind_eq_bind, Option.bind_some]
              dsimp only
              rw [skipWhitespace_append (by rw [skipped]; rintro ⟨⟩), skipped]
              show (scanFields fuel' (skipWhitespace (tail ++ more))).bind
                _ = _
              rw [skipWhitespace_append nonempty,
                reads.fields fuel' _ _ _ more isOthers enough]
              rfl
          · cases scanned
      · cases scanned
  · cases scanned

theorem scanOnce_append (reads : ReadsOn fuel) {fuel' : Nat} {value : Json}
    (scanned : scanOnce (fuel + 1) text = some (value, rest))
    (enough : fuel ≤ fuel') {more : List Char}
    (ends : Stops (rest ++ more) ∨ value.isObj = true) :
    scanOnce (fuel' + 1) (text ++ more) = some (value, rest ++ more) := by
  cases text with
  | nil => cases scanned
  | cons char text =>
      rw [scanOnce] at scanned
      rw [List.cons_append, scanOnce]
      split at scanned
      · next isQuote =>
          obtain ⟨⟨value, _⟩, isString, same⟩ :=
            Option.map_eq_some_iff.mp scanned
          cases same
          rw [if_pos isQuote, scanString_append isString]
          rfl
      next notQuote =>
      rw [if_neg notQuote]
      split at scanned
      · next isBrace =>
          rw [if_pos isBrace]
          split at scanned
          · next skipped =>
              cases scanned
              rw [skipWhitespace_append (by rw [skipped]; nofun), skipped]
              rfl
          · next notEmpty =>
              obtain ⟨⟨fields, _⟩, isFields, same⟩ :=
                Option.map_eq_some_iff.mp scanned
              cases same
              have nonempty : skipWhitespace text ≠ [] := by
                intro isEmpty
                rw [isEmpty] at isFields
                exact scanFields_nonempty isFields
              rw [skipWhitespace_append nonempty]
              split
              · next tail same =>
                  cases isText : skipWhitespace text with
                  | nil => exact absurd isText nonempty
                  | cons first others =>
                      rw [isText] at same
                      cases same
                      exact absurd isText (notEmpty others)
              · rw [reads.fields fuel' _ _ _ more isFields enough]
                rfl
      next notBrace =>
      rw [if_neg notBrace]
      split at scanned
      · next isBracket =>
          rw [if_pos isBracket]
          split at scanned
          · next skipped =>
              cases scanned
              rw [skipWhitespace_append (by rw [skipped]; nofun), skipped]
              rfl
          · next notEmpty =>
              obtain ⟨⟨items, _⟩, isItems, same⟩ :=
                Option.map_eq_some_iff.mp scanned
              cases same
              have nonempty : skipWhitespace text ≠ [] := by
                intro isEmpty
                rw [isEmpty] at isItems
                exact scanItems_nonempty isItems
              rw [skipWhitespace_append nonempty]
              split
              · next tail same =>
                  cases isText : skipWhitespace text with
                  | nil => exact absurd isText nonempty
                  | cons first others =>
                      rw [isText] at same
                      cases same
                      exact absurd isText (notEmpty others)
              · rw [reads.items fuel' _ _ _ more isItems enough]
                rfl
      next notBracket =>
      rw [if_neg notBracket]
      rcases ends with stops | isObj
      · exact scanScalar_append scanned stops
      · rw [scanScalar_isObj scanned] at isObj
        cases isObj

end ReadsOn

/-- What follows a value does not change how it is read. -/
theorem readsOn (fuel : Nat) : ReadsOn fuel := by
  induction fuel with
  | zero => exact ⟨nofun, nofun, nofun⟩
  | succ fuel reads =>
      constructor
      · intro fuel' text value rest more scanned enough ends
        cases fuel' with
        | zero => cases enough
        | succ fuel' =>
            exact scanOnce_append reads scanned
              (Nat.le_of_succ_le_succ enough) ends
      · intro fuel' text items rest more scanned enough
        cases fuel' with
        | zero => cases enough
        | succ fuel' =>
            exact scanItems_append reads scanned
              (Nat.le_of_succ_le_succ enough) more
      · intro fuel' text fields rest more scanned enough
        cases fuel' with
        | zero => cases enough
        | succ fuel' =>
            exact scanFields_append reads scanned
              (Nat.le_of_succ_le_succ enough) more

/-! ## Round trip -/

mutual

/--
A value that a parser may return: a float is given by its text, and the names
of the fields of an object are distinct.
-/
def WellFormed : Json → Prop
  | .float text => scanScalar text.toList = some (.float text, [])
  | .arr items => WellFormedItems items
  | .obj fields =>
      (fields.map Prod.fst).Nodup ∧ WellFormedFields fields
  | _ => True

def WellFormedItems : List Json → Prop
  | [] => True
  | item :: items => WellFormed item ∧ WellFormedItems items

def WellFormedFields : List (String × Json) → Prop
  | [] => True
  | (_, value) :: fields => WellFormed value ∧ WellFormedFields fields

end

theorem wellFormedFields_iff {fields : List (String × Json)} :
    WellFormedFields fields ↔ ∀ field ∈ fields, WellFormed field.2 := by
  induction fields with
  | nil => simp [WellFormedFields]
  | cons field fields induction =>
      obtain ⟨name, value⟩ := field
      rw [WellFormedFields, induction, List.forall_mem_cons]

theorem wellFormed_obj {fields : List (String × Json)} :
    WellFormed (.obj fields) ↔
      (fields.map Prod.fst).Nodup ∧
        ∀ field ∈ fields, WellFormed field.2 := by
  rw [WellFormed, wellFormedFields_iff]

/-- The text is read as the value. -/
def ReadsAs (text : List Char) (value : Json) : Prop :=
  ∀ fuel rest, 2 * text.length + 1 ≤ fuel → Stops rest →
    scanOnce fuel (text ++ rest) = some (value, rest)

/-- The text of the value is read as the value. -/
def Reads (value : Json) : Prop :=
  ∀ fuel rest, 2 * (dumps value).length + 1 ≤ fuel → Stops rest →
    scanOnce fuel (dumps value ++ rest) = some (value, rest)

/-- The text is a quote and what is read as the string. -/
def StringReads (text : List Char) (value : String) : Prop :=
  ∃ body, text = '"' :: body ∧
    ∀ rest, scanString (body ++ rest) = some (value, rest)

/-- The text is a name, a colon and a blank, and a value. -/
def FieldReads (text : List Char) (field : String × Json) : Prop :=
  ∃ name value, text = name ++ ':' :: ' ' :: value ∧
    StringReads name field.1 ∧ ReadsAs value field.2

/-- Texts behind another one, with a comma and a blank before each. -/
def moreTexts : List (List Char) → List Char
  | [] => []
  | text :: rest => ',' :: ' ' :: (text ++ moreTexts rest)

/-- Texts with a comma and a blank between them. -/
def joinTexts : List (List Char) → List Char
  | [] => []
  | text :: rest => text ++ moreTexts rest

variable {text : List Char} {texts : List (List Char)}

/-- The text of a scalar is read as the scalar. -/
theorem readsAs_scalar {value : Json}
    (scanned : scanOnce 1 text = some (value, [])) : ReadsAs text value := by
  intro fuel rest enough stops
  exact (readsOn 1).value fuel _ _ _ rest scanned (by omega) (Or.inl stops)

/-- A scalar is read by itself. -/
theorem scanOnce_scalar {text : List Char} {scanned : Json × List Char}
    (isScalar : scanScalar text = some scanned) :
    scanOnce 1 text = some scanned := by
  obtain ⟨char, tail, rfl, isFirst⟩ := scanScalar_head isScalar
  have plain : char ≠ '"' ∧ char ≠ '{' ∧ char ≠ '[' := by
    rcases isFirst with isDigit | listed
    · refine ⟨?_, ?_, ?_⟩ <;>
        · rintro rfl
          cases isDigit
    · have plain :
          ("-ntfNI".toList.all fun char =>
            char != '"' && (char != '{' && char != '[')) = true := by
        decide
      simpa using List.all_eq_true.mp plain char listed
  rw [scanOnce, if_neg plain.1, if_neg plain.2.1, if_neg plain.2.2, isScalar]

/-- The text of a value begins with no blank. -/
theorem ReadsAs.skip {value : Json} (reads : ReadsAs text value)
    (rest : List Char) :
    skipWhitespace (text ++ rest) = text ++ rest ∧
      ∀ tail, text ++ rest ≠ ']' :: tail := by
  have scanned := reads _ [] (Nat.le_refl _) nofun
  rw [List.append_nil] at scanned
  obtain ⟨char, tail, isText, notBlank, notEnd⟩ := scanOnce_head scanned
  rw [isText, List.cons_append]
  refine ⟨skipWhitespace_cons notBlank _, ?_⟩
  intro tail same
  cases same
  exact notEnd rfl

theorem FieldReads.skip {field : String × Json} (reads : FieldReads text field)
    (rest : List Char) : skipWhitespace (text ++ rest) = text ++ rest := by
  obtain ⟨name, value, rfl, ⟨body, rfl, -⟩, -⟩ := reads
  exact skipWhitespace_cons (by decide) _

theorem readsAs_str {value : String} (reads : StringReads text value) :
    ReadsAs text (.str value) := by
  obtain ⟨body, rfl, isString⟩ := reads
  intro fuel rest enough _
  cases fuel with
  | zero => omega
  | succ fuel =>
      rw [List.cons_append, scanOnce, if_pos rfl, isString]
      rfl

/-- The items of an array are read one by one. -/
theorem scanItems_texts {item : Json} {items : List Json}
    (itemReads : ReadsAs text item) (reads : List.Forall₂ ReadsAs texts items)
    {fuel : Nat} (rest : List Char)
    (enough : 2 * (text ++ moreTexts texts).length + 2 ≤ fuel) :
    scanItems fuel (text ++ (moreTexts texts ++ ']' :: rest)) =
      some (item :: items, rest) := by
  induction reads generalizing text item fuel with
  | nil =>
      cases fuel with
      | zero => omega
      | succ fuel =>
          rw [moreTexts, List.append_nil] at enough
          rw [scanItems, itemReads fuel _ (by omega) (by
            rintro char same
            cases same
            decide)]
          rfl
  | @cons next nextItem texts items nextReads reads induction =>
      cases fuel with
      | zero => omega
      | succ fuel =>
          rw [moreTexts] at enough ⊢
          simp only [List.length_append, List.length_cons] at enough
          have others :
              scanItems fuel (next ++ (moreTexts texts ++ ']' :: rest)) =
                some (nextItem :: items, rest) := by
            apply induction nextReads
            rw [List.length_append]
            omega
          rw [scanItems, itemReads fuel _ (by omega) (by
            rintro char same
            cases same
            decide)]
          show (scanItems fuel (skipWhitespace
            (' ' :: ((next ++ moreTexts texts) ++ ']' :: rest)))).bind _ = _
          rw [List.append_assoc, skipWhitespace,
            List.dropWhile_cons_of_pos (by decide), ← skipWhitespace,
            (nextReads.skip _).1, others]
          rfl

/-- A field is read, and the fields behind it. -/
theorem scanFields_text {field : String × Json}
    (fieldReads : FieldReads text field) {fuel : Nat}
    (enough : 2 * text.length + 1 ≤ fuel) {rest : List Char} (stops : Stops rest) :
    scanFields (fuel + 1) (text ++ rest) =
      match skipWhitespace rest with
      | '}' :: rest => some ([field], rest)
      | ',' :: rest =>
          (scanFields fuel (skipWhitespace rest)).bind fun scanned =>
            some (field :: scanned.1, scanned.2)
      | _ => none := by
  obtain ⟨name, value, rfl, ⟨body, rfl, isString⟩, valueReads⟩ := fieldReads
  simp only [List.length_append, List.length_cons] at enough
  rw [List.cons_append, List.cons_append, List.append_assoc, List.cons_append,
    scanFields, isString]
  show (scanOnce fuel (skipWhitespace (' ' :: (value ++ rest)))).bind _ = _
  rw [skipWhitespace, List.dropWhile_cons_of_pos (by decide),
    ← skipWhitespace, (valueReads.skip _).1, valueReads fuel _ (by omega) stops]
  rfl

/-- The fields of an object are read one by one. -/
theorem scanFields_texts {field : String × Json}
    {fields : List (String × Json)} (fieldReads : FieldReads text field)
    (reads : List.Forall₂ FieldReads texts fields) {fuel : Nat}
    (rest : List Char)
    (enough : 2 * (text ++ moreTexts texts).length + 2 ≤ fuel) :
    scanFields fuel (text ++ (moreTexts texts ++ '}' :: rest)) =
      some (field :: fields, rest) := by
  induction reads generalizing text field fuel with
  | nil =>
      cases fuel with
      | zero => omega
      | succ fuel =>
          rw [moreTexts, List.append_nil] at enough
          rw [scanFields_text fieldReads (by omega) (by
            rintro char same
            cases same
            decide)]
          rfl
  | @cons next nextField texts fields nextReads reads induction =>
      cases fuel with
      | zero => omega
      | succ fuel =>
          rw [moreTexts] at enough ⊢
          simp only [List.length_append, List.length_cons] at enough
          have others :
              scanFields fuel (next ++ (moreTexts texts ++ '}' :: rest)) =
                some (nextField :: fields, rest) := by
            apply induction nextReads
            rw [List.length_append]
            omega
          rw [scanFields_text fieldReads (by omega) (by
            rintro char same
            cases same
            decide)]
          show (scanFields fuel (skipWhitespace
            (' ' :: ((next ++ moreTexts texts) ++ '}' :: rest)))).bind _ = _
          rw [List.append_assoc, skipWhitespace,
            List.dropWhile_cons_of_pos (by decide), ← skipWhitespace,
            nextReads.skip, others]
          rfl

/-- Distinct names are all kept. -/
theorem dictOf_eq {fields : List (String × Json)}
    (distinct : (fields.map Prod.fst).Nodup) : dictOf fields = fields := by
  suffices general :
      ∀ front, ((front ++ fields).map Prod.fst).Nodup →
        fields.foldl
            (fun fields pair =>
              if (fieldOf fields pair.1).isSome then
                fields.map fun field =>
                  if field.1 = pair.1 then pair else field
              else fields ++ [pair])
            front =
          front ++ fields from
    general [] distinct
  clear distinct
  intro front distinct
  induction fields generalizing front with
  | nil => exact (List.append_nil _).symm
  | cons field fields induction =>
      have new : ¬ (fieldOf front field.1).isSome = true := by
        rw [fieldOf_isSome]
        rw [List.map_append, List.map_cons, List.nodup_append] at distinct
        intro old
        exact distinct.2.2 _ old _ List.mem_cons_self rfl
      rw [List.foldl_cons, if_neg new, induction]
      · rw [List.append_assoc, List.singleton_append]
      · rwa [List.append_assoc, List.singleton_append]

theorem readsAs_arr {items : List Json}
    (reads : List.Forall₂ ReadsAs texts items) :
    ReadsAs ('[' :: (joinTexts texts ++ [']'])) (.arr items) := by
  intro fuel rest enough _
  cases fuel with
  | zero => omega
  | succ fuel =>
      cases reads with
      | nil => rfl
      | @cons text item texts items itemReads reads =>
          rw [joinTexts] at enough ⊢
          rw [List.length_cons, List.length_append,
            List.length_singleton] at enough
          rw [List.cons_append, List.append_assoc, List.append_assoc,
            List.singleton_append, scanOnce, if_neg (by decide),
            if_neg (by decide), if_pos rfl]
          obtain ⟨skipped, notEnd⟩ :=
            itemReads.skip (moreTexts texts ++ ']' :: rest)
          rw [skipped]
          split
          · next same => exact absurd same (notEnd _)
          · rw [scanItems_texts itemReads reads rest (by omega)]
            rfl

theorem readsAs_obj {fields : List (String × Json)}
    (distinct : (fields.map Prod.fst).Nodup)
    (reads : List.Forall₂ FieldReads texts fields) :
    ReadsAs ('{' :: (joinTexts texts ++ ['}'])) (.obj fields) := by
  intro fuel rest enough _
  cases fuel with
  | zero => omega
  | succ fuel =>
      cases reads with
      | nil => rfl
      | @cons text field texts fields fieldReads reads =>
          rw [joinTexts] at enough ⊢
          rw [List.length_cons, List.length_append,
            List.length_singleton] at enough
          have scanned : scanFields fuel _ = _ :=
            scanFields_texts fieldReads reads rest (by omega)
          have skipped := fieldReads.skip (moreTexts texts ++ '}' :: rest)
          obtain ⟨name, value, rfl, ⟨body, rfl, -⟩, -⟩ := fieldReads
          rw [List.cons_append, List.append_assoc, List.append_assoc,
            List.singleton_append, scanOnce, if_neg (by decide), if_pos rfl,
            skipped]
          show (scanFields fuel (('"' :: body ++ ':' :: ' ' :: value) ++
            (moreTexts texts ++ '}' :: rest))).map _ = _
          rw [scanned, Option.map_some, dictOf_eq distinct]

/-- A way of writing values: strings in any way in which they are read again. -/
structure Writer (write : Json → List Char) : Prop where
  null : write .null = dumps .null
  bool : ∀ value, write (.bool value) = dumps (.bool value)
  int : ∀ value, write (.int value) = dumps (.int value)
  float : ∀ text, WellFormed (.float text) →
    write (.float text) = dumps (.float text)
  str : ∀ value, StringReads (write (.str value)) value
  arr : ∀ items,
    write (.arr items) = '[' :: (joinTexts (items.map write) ++ [']'])
  obj : ∀ fields, write (.obj fields) =
    '{' :: (joinTexts (fields.map fun field =>
      write (.str field.1) ++ ':' :: ' ' :: write field.2) ++ ['}'])

section Writers

variable {write : Json → List Char}

mutual

/-- What a writer writes is read as the value. -/
theorem Writer.reads (writer : Writer write) :
    ∀ value : Json, WellFormed value → ReadsAs (write value) value
  | .null, _ => writer.null ▸ readsAs_scalar rfl
  | .bool true, _ => writer.bool true ▸ readsAs_scalar rfl
  | .bool false, _ => writer.bool false ▸ readsAs_scalar rfl
  | .int value, _ => by
      rw [writer.int]
      apply readsAs_scalar
      apply scanOnce_scalar
      rw [dumps, scanScalar, scanNumber_dumpInt]
  | .float text, wellFormed => by
      rw [writer.float text wellFormed]
      apply readsAs_scalar
      apply scanOnce_scalar
      rw [dumps]
      rwa [WellFormed] at wellFormed
  | .str value, _ => readsAs_str (writer.str value)
  | .arr items, wellFormed => by
      rw [WellFormed] at wellFormed
      rw [writer.arr]
      exact readsAs_arr (writer.reads_items items wellFormed)
  | .obj fields, wellFormed => by
      rw [WellFormed] at wellFormed
      rw [writer.obj]
      exact readsAs_obj wellFormed.1 (writer.reads_fields fields wellFormed.2)

theorem Writer.reads_items (writer : Writer write) :
    ∀ items : List Json, WellFormedItems items →
      List.Forall₂ ReadsAs (items.map write) items
  | [], _ => .nil
  | item :: items, wellFormed => by
      rw [WellFormedItems] at wellFormed
      exact .cons (writer.reads item wellFormed.1)
        (writer.reads_items items wellFormed.2)

theorem Writer.reads_fields (writer : Writer write) :
    ∀ fields : List (String × Json), WellFormedFields fields →
      List.Forall₂ FieldReads (fields.map fun field =>
        write (.str field.1) ++ ':' :: ' ' :: write field.2) fields
  | [], _ => .nil
  | (name, value) :: fields, wellFormed => by
      rw [WellFormedFields] at wellFormed
      exact .cons ⟨_, _, rfl, writer.str name, writer.reads value wellFormed.1⟩
        (writer.reads_fields fields wellFormed.2)

end

/-- What a writer writes is loaded again. -/
theorem Writer.loads (writer : Writer write) {value : Json}
    (wellFormed : WellFormed value) : JsonText.loads (write value) = some value := by
  have reads := writer.reads value wellFormed
  obtain ⟨skipped, _⟩ := reads.skip []
  rw [List.append_nil] at skipped
  have scanned := reads _ [] (Nat.le_refl _) nofun
  rw [List.append_nil] at scanned
  rw [JsonText.loads, skipped, scanned]
  rfl

/-- With something behind it, it is not loaded. -/
theorem Writer.not_loads (writer : Writer write) {value : Json}
    (wellFormed : WellFormed value) {char : Char}
    (notNumber : isNumberChar char = false) (notBlank : isWhitespace char = false)
    (more : List Char) :
    JsonText.loads (write value ++ char :: more) = none := by
  have reads := writer.reads value wellFormed
  have stops : Stops (char :: more) := by
    rintro first isFirst
    cases isFirst
    exact notNumber
  rw [JsonText.loads, (reads.skip _).1,
    reads _ _ (by rw [List.length_append]; omega) stops]
  show (if skipWhitespace (char :: more) = [] then _ else none) = none
  rw [skipWhitespace_cons notBlank, if_neg (List.cons_ne_nil _ _)]

end Writers

theorem dumpMoreItems_eq (items : List Json) :
    dumpMoreItems items = moreTexts (items.map dumps) := by
  induction items with
  | nil => rfl
  | cons item items induction =>
      rw [dumpMoreItems, induction]
      rfl

theorem dumpItems_eq (items : List Json) :
    dumpItems items = joinTexts (items.map dumps) := by
  cases items with
  | nil => rfl
  | cons item items =>
      rw [dumpItems, dumpMoreItems_eq]
      rfl

theorem dumpMoreFields_eq (fields : List (String × Json)) :
    dumpMoreFields fields = moreTexts (fields.map fun field =>
      dumps (.str field.1) ++ ':' :: ' ' :: dumps field.2) := by
  induction fields with
  | nil => rfl
  | cons field fields induction =>
      rw [dumpMoreFields, induction, List.map_cons, moreTexts, dumps,
        List.append_assoc]
      rfl

theorem dumpFields_eq (fields : List (String × Json)) :
    dumpFields fields = joinTexts (fields.map fun field =>
      dumps (.str field.1) ++ ':' :: ' ' :: dumps field.2) := by
  cases fields with
  | nil => rfl
  | cons field fields =>
      rw [dumpFields, dumpMoreFields_eq, List.map_cons, joinTexts, dumps,
        List.append_assoc]
      rfl

theorem writer_dumps : Writer dumps where
  null := rfl
  bool _ := rfl
  int _ := rfl
  float _ _ := rfl
  str value := by
    refine ⟨escape value.toList ++ ['"'], by rw [dumps, dumpString], fun rest => ?_⟩
    rw [List.append_assoc]
    exact scanString_escape value rest
  arr items := by rw [dumps, dumpItems_eq]
  obj fields := by rw [dumps, dumpFields_eq]

/-- The text of a value is read as the value. -/
theorem reads_dumps (value : Json) (wellFormed : WellFormed value) : Reads value :=
  writer_dumps.reads value wellFormed

/-- What is written is read again. -/
theorem loads_dumps {value : Json} (wellFormed : WellFormed value) :
    loads (dumps value) = some value :=
  writer_dumps.loads wellFormed

/-- What begins with a brace is an object. -/
theorem scanOnce_brace {fuel : Nat} {text rest : List Char} {value : Json}
    (scanned : scanOnce fuel ('{' :: text) = some (value, rest)) :
    value.isObj = true := by
  cases fuel with
  | zero => cases scanned
  | succ fuel =>
      rw [scanOnce, if_neg (by decide), if_pos rfl] at scanned
      split at scanned
      · cases scanned
        rfl
      · obtain ⟨_, _, same⟩ := Option.map_eq_some_iff.mp scanned
        cases same
        rfl

/-- A text that is read as an object ends where the object ends. -/
theorem not_loads_prefix {fields : List (String × Json)}
    (wellFormed : WellFormed (.obj fields)) {front back : List Char}
    (split : dumps (.obj fields) = front ++ back) (rest : back ≠ []) :
    loads front = none := by
  cases front with
  | nil => rfl
  | cons char front =>
      have brace : char = '{' := by
        rw [dumps] at split
        exact (List.cons.inj split).1.symm
      subst brace
      have notBlank : isWhitespace '{' = false := by decide
      rw [loads, skipWhitespace_cons notBlank]
      cases scanned :
          scanOnce (2 * ('{' :: front).length + 1) ('{' :: front) with
      | none => rfl
      | some found =>
          obtain ⟨value, remaining⟩ := found
          obtain ⟨fuel, isFuel⟩ :
              ∃ fuel, fuel = 2 * ('{' :: front).length + 1 +
                (2 * (dumps (.obj fields)).length + 1) := ⟨_, rfl⟩
          have whole := reads_dumps _ wellFormed fuel [] (by omega) nofun
          have extended := (readsOn _).value fuel _ _ _ back scanned
            (by omega) (Or.inr (scanOnce_brace scanned))
          rw [List.append_nil, split, extended] at whole
          have nothing := congrArg Prod.snd (Option.some.inj whole)
          exact absurd (List.append_eq_nil_iff.mp nothing).2 rest

/-! ## The characters of a text -/

/-- A printable ASCII character. -/
def isPrintable (char : Char) : Bool :=
  32 ≤ char.toNat && char.toNat < 127

mutual

/-- The characters of the strings and names of a value. -/
def stringChars : Json → List Char
  | .str text => text.toList
  | .arr items => itemChars items
  | .obj fields => fieldChars fields
  | _ => []

def itemChars : List Json → List Char
  | [] => []
  | item :: items => stringChars item ++ itemChars items

def fieldChars : List (String × Json) → List Char
  | [] => []
  | (name, value) :: fields =>
      name.toList ++ (stringChars value ++ fieldChars fields)

end

/--
What is printable may stand anywhere in a text; another character that stands
there is one of the strings, and no control character.
-/
def Shows (chars text : List Char) : Prop :=
  ∀ char, isPrintable char = false →
    (char ∈ text ↔ char ∈ chars ∧ 32 ≤ char.toNat)

theorem shows_printable {text : List Char}
    (printable : text.all isPrintable = true) : Shows [] text := by
  intro char notPrintable
  constructor
  · intro member
    rw [List.all_eq_true.mp printable char member] at notPrintable
    cases notPrintable
  · rintro ⟨member, _⟩
    cases member

theorem Shows.append {chars chars' text text' : List Char}
    (first : Shows chars text) (second : Shows chars' text') :
    Shows (chars ++ chars') (text ++ text') := by
  intro char notPrintable
  rw [List.mem_append, List.mem_append, first char notPrintable,
    second char notPrintable]
  tauto

theorem Shows.cons {chars text : List Char} (shows : Shows chars text)
    {char : Char} (printable : isPrintable char = true) :
    Shows chars (char :: text) := by
  have first : Shows [] [char] := by
    apply shows_printable
    simpa using printable
  exact first.append shows

theorem digit_printable {char : Char} (isDigit : char.isDigit = true) :
    isPrintable char = true := by
  have bounds := digit_bounds isDigit
  simp only [isPrintable, Bool.and_eq_true, decide_eq_true_eq]
  omega

/-! ### Numbers -/

theorem isNumberChar_printable {char : Char}
    (isNumber : isNumberChar char = true) : isPrintable char = true := by
  simp only [isNumberChar, Bool.or_eq_true, beq_iff_eq] at isNumber
  rcases isNumber with ((((isDigit | rfl) | rfl) | rfl) | rfl) | rfl
  · exact digit_printable isDigit
  all_goals decide

/-- The characters of a text are those of a number, or are in the rest. -/
def NumberPart (text rest : List Char) : Prop :=
  ∀ char ∈ text, isNumberChar char = true ∨ char ∈ rest

theorem digit_isNumberChar {char : Char} (isDigit : char.isDigit = true) :
    isNumberChar char = true := by
  simp [isNumberChar, isDigit]

theorem NumberPart.trans {text rest last : List Char}
    (first : NumberPart text rest) (second : NumberPart rest last) :
    NumberPart text last := by
  intro char member
  rcases first char member with isNumber | left
  · exact Or.inl isNumber
  · exact second char left

theorem NumberPart.cons {text rest : List Char}
    (part : NumberPart text rest) {char : Char}
    (isNumber : isNumberChar char = true) :
    NumberPart (char :: text) rest := by
  intro other member
  rcases List.mem_cons.mp member with rfl | later
  · exact Or.inl isNumber
  · exact part other later

theorem numberPart_self (text : List Char) : NumberPart text text :=
  fun _ member => Or.inr member

theorem numberPart_dropWhile (text : List Char) :
    NumberPart text (text.dropWhile Char.isDigit) := by
  have split :
      text.takeWhile Char.isDigit ++ text.dropWhile Char.isDigit = text :=
    List.takeWhile_append_dropWhile
  intro char member
  rw [← split, List.mem_append] at member
  rcases member with taken | dropped
  · exact Or.inl (digit_isNumberChar (List.mem_takeWhile_imp taken))
  · exact Or.inr dropped

theorem scanDigits_part {text digits rest : List Char}
    (scanned : scanDigits text = some (digits, rest)) :
    NumberPart text rest := by
  cases text with
  | nil => cases scanned
  | cons char tail =>
      rw [scanDigits] at scanned
      split at scanned
      · next isZero =>
          have zero : isNumberChar '0' = true := by decide
          cases scanned
          subst isZero
          exact (numberPart_self _).cons zero
      · split at scanned
        · next isDigit =>
            cases scanned
            exact (numberPart_dropWhile tail).cons (digit_isNumberChar isDigit)
        · cases scanned

theorem scanFraction_part (text : List Char) :
    NumberPart text (scanFraction text).2 := by
  rw [scanFraction.eq_def]
  split
  · dsimp only
    split
    · exact numberPart_self _
    · exact (numberPart_dropWhile _).cons (by decide)
  · exact numberPart_self _

theorem scanSign_part (text : List Char) :
    NumberPart text (scanSign text).2 := by
  rw [scanSign.eq_def]
  split
  · exact (numberPart_self _).cons (by decide)
  · exact (numberPart_self _).cons (by decide)
  · exact numberPart_self _

theorem scanExponent_part (text : List Char) :
    NumberPart text (scanExponent text).2 := by
  cases text with
  | nil => exact numberPart_self _
  | cons char tail =>
      rw [scanExponent]
      dsimp only
      split
      · next isExponent =>
          have part :=
            (scanSign_part tail).trans (numberPart_dropWhile _)
          rcases isExponent.1 with rfl | rfl
          · exact part.cons (by decide)
          · exact part.cons (by decide)
      · exact numberPart_self _

theorem scanUnsigned_part {negative : Bool} {text rest : List Char}
    {value : Json}
    (scanned : scanUnsigned negative text = some (value, rest)) :
    NumberPart text rest := by
  obtain ⟨⟨digits, afterDigits⟩, isDigits, same⟩ :=
    Option.map_eq_some_iff.mp scanned
  cases same
  exact ((scanDigits_part isDigits).trans (scanFraction_part _)).trans
    (scanExponent_part _)

/-- The characters of a scalar are those of a number or of a literal. -/
theorem scanScalar_chars {text : List Char} {value : Json}
    (scanned : scanScalar text = some (value, [])) :
    (∀ char ∈ text, isNumberChar char = true) ∨
      ∃ literal ∈ literals, text = literal.1 := by
  have ofPart (part : NumberPart text []) (char : Char) (member : char ∈ text) :
      isNumberChar char = true :=
    (part char member).resolve_right List.not_mem_nil
  rw [scanScalar] at scanned
  split at scanned
  · next isNumber =>
      cases scanned
      rw [scanNumber.eq_def] at isNumber
      split at isNumber
      · exact .inl (ofPart ((scanUnsigned_part isNumber).cons (by decide)))
      · exact .inl (ofPart (scanUnsigned_part isNumber))
  · obtain ⟨literal, member, isText, _⟩ := literal_of_scanLiteral scanned
    exact .inr ⟨literal, member, isText.trans (List.append_nil _)⟩

/-- A scalar is printable. -/
theorem scanScalar_printable {text : List Char} {value : Json}
    (scanned : scanScalar text = some (value, [])) :
    text.all isPrintable = true := by
  rcases scanScalar_chars scanned with areNumber | ⟨literal, member, rfl⟩
  · rw [List.all_eq_true]
    exact fun char member => isNumberChar_printable (areNumber char member)
  · have printable :
        (literals.all fun literal => literal.1.all isPrintable) = true := by
      decide
    exact List.all_eq_true.mp printable literal member

/-! ### Strings -/

theorem hexDigit_printable (value : Nat) :
    isPrintable (hexDigit value) = true := by
  by_cases small : value < 16
  · revert value
    decide
  · have beyond : "0123456789abcdef".toList.length ≤ value := by
      simpa using small
    rw [hexDigit, List.getD_eq_getElem?_getD,
      List.getElem?_eq_none beyond]
    decide

/-- An escape stands for a character that does not show. -/
theorem shows_escaped {char : Char} {text : List Char}
    (hidden : isPrintable char = true ∨ char.toNat < 32)
    (printable : text.all isPrintable = true) : Shows [char] text := by
  intro other notPrintable
  constructor
  · intro member
    rw [List.all_eq_true.mp printable other member] at notPrintable
    cases notPrintable
  · rintro ⟨member, noControl⟩
    cases List.mem_singleton.mp member
    rcases hidden with isPrintable | isControl
    · rw [isPrintable] at notPrintable
      cases notPrintable
    · omega

theorem shows_escapeChar (char : Char) :
    Shows [char] (escapeChar char) := by
  rw [escapeChar]
  split
  · next isChar =>
      subst isChar
      exact shows_escaped (by decide) (by decide)
  split
  · next isChar =>
      subst isChar
      exact shows_escaped (by decide) (by decide)
  split
  · next isChar =>
      subst isChar
      exact shows_escaped (by decide) (by decide)
  split
  · next isChar =>
      subst isChar
      exact shows_escaped (by decide) (by decide)
  split
  · next isChar =>
      subst isChar
      exact shows_escaped (by decide) (by decide)
  split
  · next isCode => exact shows_escaped (Or.inr (by omega)) (by decide)
  split
  · next isCode => exact shows_escaped (Or.inr (by omega)) (by decide)
  split
  · next isControl =>
      apply shows_escaped (Or.inr isControl)
      have high := hexDigit_printable (char.toNat / 16)
      have low := hexDigit_printable (char.toNat % 16)
      have others : ['\\', 'u', '0', '0'].all isPrintable = true := by
        decide
      have digits :
          [hexDigit (char.toNat / 16), hexDigit (char.toNat % 16)].all
            isPrintable = true := by
        simp [high, low]
      show (['\\', 'u', '0', '0'] ++ [_, _]).all isPrintable = true
      rw [List.all_append, others, digits]
      rfl
  · next notControl =>
      intro other _
      constructor
      · intro member
        refine ⟨member, ?_⟩
        cases List.mem_singleton.mp member
        omega
      · exact And.left

theorem shows_escape (text : List Char) : Shows text (escape text) := by
  induction text with
  | nil => exact shows_printable rfl
  | cons char text induction =>
      rw [escape, List.flatMap_cons, ← escape]
      exact (shows_escapeChar char).append induction

theorem shows_dumpString (text : String) :
    Shows text.toList (dumpString text) := by
  have quote : Shows [] ['"'] := shows_printable (by decide)
  rw [dumpString]
  have quoted := ((shows_escape text.toList).append quote).cons
    (show isPrintable '"' = true by decide)
  rwa [List.append_nil] at quoted

/-! ### Values -/

theorem shows_dumpInt (value : Int) : Shows [] (dumpInt value) := by
  have shows (value : Nat) : Shows [] (dumpNat value) := by
    apply shows_printable
    rw [List.all_eq_true]
    intro char member
    exact digit_printable ((dumpNat_digits value).1 char member)
  cases value with
  | ofNat value => exact shows value
  | negSucc value => exact (shows (value + 1)).cons (by decide)

/-- Text that shows nothing may stand after a text. -/
theorem Shows.before {chars text : List Char} (shows : Shows chars text)
    {back : List Char} (printable : back.all isPrintable = true) :
    Shows chars (text ++ back) := by
  have both := shows.append (shows_printable printable)
  rwa [List.append_nil] at both

mutual

/-- The text of a value shows the characters of its strings. -/
theorem shows_dumps :
    ∀ value : Json, WellFormed value → Shows (stringChars value) (dumps value)
  | .null, _ => by
      rw [stringChars, dumps]
      · exact shows_printable (by decide)
      all_goals nofun
  | .bool true, _ => by
      rw [stringChars, dumps]
      · exact shows_printable (by decide)
      all_goals nofun
  | .bool false, _ => by
      rw [stringChars, dumps]
      · exact shows_printable (by decide)
      all_goals nofun
  | .int value, _ => by
      rw [stringChars, dumps]
      · exact shows_dumpInt value
      all_goals nofun
  | .float text, wellFormed => by
      rw [WellFormed] at wellFormed
      rw [stringChars, dumps]
      · exact shows_printable (scanScalar_printable wellFormed)
      all_goals nofun
  | .str text, _ => by
      rw [stringChars, dumps]
      exact shows_dumpString text
  | .arr items, wellFormed => by
      rw [WellFormed] at wellFormed
      rw [stringChars, dumps]
      exact ((shows_dumpItems items wellFormed).before (by decide)).cons
        (by decide)
  | .obj fields, wellFormed => by
      rw [WellFormed] at wellFormed
      rw [stringChars, dumps]
      exact
        ((shows_dumpFields fields wellFormed.2).before (by decide)).cons
          (by decide)

theorem shows_dumpItems :
    ∀ items : List Json, WellFormedItems items →
      Shows (itemChars items) (dumpItems items)
  | [], _ => shows_printable rfl
  | item :: items, wellFormed => by
      rw [WellFormedItems] at wellFormed
      rw [itemChars, dumpItems]
      exact (shows_dumps item wellFormed.1).append
        (shows_dumpMoreItems items wellFormed.2)

theorem shows_dumpMoreItems :
    ∀ items : List Json, WellFormedItems items →
      Shows (itemChars items) (dumpMoreItems items)
  | [], _ => shows_printable rfl
  | item :: items, wellFormed => by
      rw [WellFormedItems] at wellFormed
      rw [itemChars, dumpMoreItems]
      have shows := (shows_dumps item wellFormed.1).append
        (shows_dumpMoreItems items wellFormed.2)
      exact (shows.cons (by decide)).cons (by decide)

theorem shows_dumpFields :
    ∀ fields : List (String × Json), WellFormedFields fields →
      Shows (fieldChars fields) (dumpFields fields)
  | [], _ => shows_printable rfl
  | (name, value) :: fields, wellFormed => by
      rw [WellFormedFields] at wellFormed
      rw [fieldChars, dumpFields]
      have shows := (shows_dumps value wellFormed.1).append
        (shows_dumpMoreFields fields wellFormed.2)
      exact (shows_dumpString name).append
        ((shows.cons (by decide)).cons (by decide))

theorem shows_dumpMoreFields :
    ∀ fields : List (String × Json), WellFormedFields fields →
      Shows (fieldChars fields) (dumpMoreFields fields)
  | [], _ => shows_printable rfl
  | (name, value) :: fields, wellFormed => by
      rw [WellFormedFields] at wellFormed
      rw [fieldChars, dumpMoreFields]
      have shows := (shows_dumps value wellFormed.1).append
        (shows_dumpMoreFields fields wellFormed.2)
      have colon : isPrintable ':' = true := by decide
      have blank : isPrintable ' ' = true := by decide
      have named := (shows_dumpString name).append
        ((shows.cons blank).cons colon)
      exact (named.cons blank).cons (by decide)

end

end JsonText
