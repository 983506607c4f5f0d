import Mathlib.Data.List.Basic

/-!
# Tokens of an HTML page

A tokenizer reads a page one character at a time.  What the start tag of an
element says about its content decides the state behind the tag: the content
of a script has the states in which it may be escaped, once or twice, and ends
at an end tag only outside the second.

Comments, character references and what may stand behind the name of a
document type are not read; such a page comes to `State.unread`.  The content
of an element that is text is what stands in the page.
-/

namespace Html

structure Tag where
  closing : Bool
  name : List Char
  attributes : List (List Char × List Char)
deriving DecidableEq, Repr

inductive Token where
  | doctype (name : List Char)
  | tag (tag : Tag)
  | char (char : Char)
deriving DecidableEq, Repr

def isSpace (char : Char) : Bool :=
  char = ' ' || char = '\t' || char = '\n' || char.toNat = 12

/-- Does the character end the name of a tag? -/
def endsName (char : Char) : Bool :=
  isSpace char || char = '/' || char = '>'

/-- A character of a text; the null character is replaced. -/
def shownChar (char : Char) : Char :=
  if char.toNat = 0 then Char.ofNat 0xfffd else char

/-! ## Content that is text -/

/-- What a character does in such content. -/
inductive Move (Place : Type) where
  | text (place : Place) (shown : List Char)
  /-- The name of the end tag of the element ends here. -/
  | endTag (ending : Char)

/-- Characters that have been read become text, and the next one is read in
another state. -/
def Move.behind {Place : Type} (read : List Char) : Move Place → Move Place
  | .text place shown => .text place (read ++ shown)
  | .endTag ending => .endTag ending

section EndTags

variable {Place : Type} (endTagName : List Char → Place)
  (home : Char → Move Place)

/-- Behind `</`. -/
def endTagOpenStep (char : Char) : Move Place :=
  if char.isAlpha then .text (endTagName [char]) []
  else (home char).behind ['<', '/']

/-- In the name of what may be the end tag of the element. -/
def endTagNameStep (element name : List Char) (char : Char) : Move Place :=
  if char.isAlpha then .text (endTagName (name ++ [char])) []
  else if endsName char ∧ name.map Char.toLower = element then .endTag char
  else (home char).behind ('<' :: '/' :: name)

end EndTags

/-- Where the tokenizer is in the content of a title or a style. -/
inductive RawPlace where
  | text
  | lessThan
  | endTagOpen
  | endTagName (name : List Char)
deriving DecidableEq, Repr

namespace RawPlace

def textStep (char : Char) : Move RawPlace :=
  if char = '<' then .text .lessThan [] else .text .text [shownChar char]

def step (element : List Char) : RawPlace → Char → Move RawPlace
  | text, char => textStep char
  | lessThan, char =>
      if char = '/' then .text .endTagOpen [] else (textStep char).behind ['<']
  | endTagOpen, char => endTagOpenStep endTagName textStep char
  | endTagName name, char => endTagNameStep endTagName textStep element name char

/-- What has been read and is not shown yet. -/
def pending : RawPlace → List Char
  | text => []
  | lessThan => ['<']
  | endTagOpen => ['<', '/']
  | endTagName name => '<' :: '/' :: name

end RawPlace

/-- Where the tokenizer is in the content of a script. -/
inductive ScriptPlace where
  | data
  | lessThan
  | endTagOpen
  | endTagName (name : List Char)
  | escapeStart
  | escapeStartDash
  | escaped
  | escapedDash
  | escapedDashDash
  | escapedLessThan
  | escapedEndTagOpen
  | escapedEndTagName (name : List Char)
  | doubleEscapeStart (name : List Char)
  | doubleEscaped
  | doubleEscapedDash
  | doubleEscapedDashDash
  | doubleEscapedLessThan
  | doubleEscapeEnd (name : List Char)
deriving DecidableEq, Repr

namespace ScriptPlace

def dataStep (char : Char) : Move ScriptPlace :=
  if char = '<' then .text .lessThan [] else .text .data [shownChar char]

def escapedStep (char : Char) : Move ScriptPlace :=
  if char = '-' then .text .escapedDash [char]
  else if char = '<' then .text .escapedLessThan []
  else .text .escaped [shownChar char]

def doubleEscapedStep (char : Char) : Move ScriptPlace :=
  if char = '-' then .text .doubleEscapedDash [char]
  else if char = '<' then .text .doubleEscapedLessThan [char]
  else .text .doubleEscaped [shownChar char]

/-- In what may be the name of a script, which changes how deep the escape is:
`script` if it is one, `other` if not. -/
def escapeNameStep (next : List Char → ScriptPlace)
    (home : Char → Move ScriptPlace) (script other : ScriptPlace)
    (name : List Char) (char : Char) : Move ScriptPlace :=
  if endsName char then
    .text (if name = "script".toList then script else other) [char]
  else if char.isAlpha then .text (next (name ++ [char.toLower])) [char]
  else home char

def doubleEscapeStartStep : List Char → Char → Move ScriptPlace :=
  escapeNameStep doubleEscapeStart escapedStep doubleEscaped escaped

def doubleEscapeEndStep : List Char → Char → Move ScriptPlace :=
  escapeNameStep doubleEscapeEnd doubleEscapedStep escaped doubleEscaped

def step : ScriptPlace → Char → Move ScriptPlace
  | data, char => dataStep char
  | lessThan, char =>
      if char = '/' then .text endTagOpen []
      else if char = '!' then .text escapeStart ['<', '!']
      else (dataStep char).behind ['<']
  | endTagOpen, char => endTagOpenStep endTagName dataStep char
  | endTagName name, char =>
      endTagNameStep endTagName dataStep "script".toList name char
  | escapeStart, char =>
      if char = '-' then .text escapeStartDash [char] else dataStep char
  | escapeStartDash, char =>
      if char = '-' then .text escapedDashDash [char] else dataStep char
  | escaped, char => escapedStep char
  | escapedDash, char =>
      if char = '-' then .text escapedDashDash [char] else escapedStep char
  | escapedDashDash, char =>
      if char = '-' then .text escapedDashDash [char]
      else if char = '>' then .text data [char]
      else escapedStep char
  | escapedLessThan, char =>
      if char = '/' then .text escapedEndTagOpen []
      else if char.isAlpha then (doubleEscapeStartStep [] char).behind ['<']
      else (escapedStep char).behind ['<']
  | escapedEndTagOpen, char => endTagOpenStep escapedEndTagName escapedStep char
  | escapedEndTagName name, char =>
      endTagNameStep escapedEndTagName escapedStep "script".toList name char
  | doubleEscapeStart name, char => doubleEscapeStartStep name char
  | doubleEscaped, char => doubleEscapedStep char
  | doubleEscapedDash, char =>
      if char = '-' then .text doubleEscapedDashDash [char]
      else doubleEscapedStep char
  | doubleEscapedDashDash, char =>
      if char = '-' then .text doubleEscapedDashDash [char]
      else if char = '>' then .text data [char]
      else doubleEscapedStep char
  | doubleEscapedLessThan, char =>
      if char = '/' then .text (doubleEscapeEnd []) [char]
      else doubleEscapedStep char
  | doubleEscapeEnd name, char => doubleEscapeEndStep name char

/-- What has been read and is not shown yet. -/
def pending : ScriptPlace → List Char
  | lessThan => ['<']
  | endTagOpen => ['<', '/']
  | endTagName name => '<' :: '/' :: name
  | escapedLessThan => ['<']
  | escapedEndTagOpen => ['<', '/']
  | escapedEndTagName name => '<' :: '/' :: name
  | _ => []

end ScriptPlace

/-! ## The tokenizer -/

inductive State where
  | data
  | tagOpen
  | endTagOpen
  | tagName (tag : Tag)
  | beforeAttributeName (tag : Tag)
  | attributeName (tag : Tag) (name : List Char)
  | afterAttributeName (tag : Tag) (name : List Char)
  | beforeAttributeValue (tag : Tag) (name : List Char)
  | attributeValueQuoted (quote : Char) (tag : Tag) (name value : List Char)
  | attributeValueUnquoted (tag : Tag) (name value : List Char)
  | afterAttributeValueQuoted (tag : Tag)
  | selfClosingStartTag (tag : Tag)
  /-- Behind `<!`, with the keyword as far as it has been read. -/
  | markupDeclaration (keyword : List Char)
  | doctype
  | doctypeName (name : List Char)
  | raw (element : List Char) (place : RawPlace)
  | script (place : ScriptPlace)
  | unread
deriving DecidableEq, Repr

def Tag.withAttribute (tag : Tag) (name value : List Char) : Tag :=
  { tag with attributes := tag.attributes ++ [(name, value)] }

/-- Elements whose content is text, scripts aside. -/
def rawElements : List (List Char) :=
  ["title".toList, "textarea".toList, "style".toList, "xmp".toList,
    "iframe".toList, "noembed".toList, "noframes".toList, "noscript".toList]

/-- The state behind a tag. -/
def stateBehind (tag : Tag) : State :=
  if tag.closing then .data
  else if tag.name = "script".toList then .script .data
  else if tag.name ∈ rawElements then .raw tag.name .text
  else if tag.name = "plaintext".toList then .unread
  else .data

/-- The tag is read to its end. -/
def emit (tag : Tag) : State × List Token := (stateBehind tag, [.tag tag])

def beforeAttributeNameStep (tag : Tag) (char : Char) : State × List Token :=
  if isSpace char then (.beforeAttributeName tag, [])
  else if char = '/' then (.selfClosingStartTag tag, [])
  else if char = '>' then emit tag
  else (.attributeName tag [shownChar char.toLower], [])

def afterAttributeNameStep (tag : Tag) (name : List Char) (char : Char) :
    State × List Token :=
  if isSpace char then (.afterAttributeName tag name, [])
  else if char = '/' then (.selfClosingStartTag (tag.withAttribute name []), [])
  else if char = '=' then (.beforeAttributeValue tag name, [])
  else if char = '>' then emit (tag.withAttribute name [])
  else
    (.attributeName (tag.withAttribute name []) [shownChar char.toLower], [])

def unquotedStep (tag : Tag) (name value : List Char) (char : Char) :
    State × List Token :=
  if isSpace char then (.beforeAttributeName (tag.withAttribute name value), [])
  else if char = '&' then (.unread, [])
  else if char = '>' then emit (tag.withAttribute name value)
  else (.attributeValueUnquoted tag name (value ++ [shownChar char]), [])

/-- The name of a tag ends with this character. -/
def nameEnd (tag : Tag) (ending : Char) : State × List Token :=
  if ending = '/' then (.selfClosingStartTag tag, [])
  else if ending = '>' then emit tag
  else (.beforeAttributeName tag, [])

def Move.result {Place : Type} (state : Place → State) (element : List Char) :
    Move Place → State × List Token
  | .text place shown => (state place, shown.map .char)
  | .endTag ending => nameEnd ⟨true, element, []⟩ ending

def step : State → Char → State × List Token
  | .data, char =>
      if char = '<' then (.tagOpen, [])
      else if char = '&' then (.unread, [])
      else (.data, [.char char])
  | .tagOpen, char =>
      if char = '!' then (.markupDeclaration [], [])
      else if char = '/' then (.endTagOpen, [])
      else if char.isAlpha then (.tagName ⟨false, [char.toLower], []⟩, [])
      else if char = '?' then (.unread, [])
      else if char = '<' then (.tagOpen, [.char '<'])
      else if char = '&' then (.unread, [.char '<'])
      else (.data, [.char '<', .char char])
  | .endTagOpen, char =>
      if char.isAlpha then (.tagName ⟨true, [char.toLower], []⟩, [])
      else if char = '>' then (.data, [])
      else (.unread, [])
  | .tagName tag, char =>
      if endsName char then nameEnd tag char
      else
        (.tagName { tag with name := tag.name ++ [shownChar char.toLower] }, [])
  | .beforeAttributeName tag, char => beforeAttributeNameStep tag char
  | .attributeName tag name, char =>
      if endsName char then afterAttributeNameStep tag name char
      else if char = '=' then (.beforeAttributeValue tag name, [])
      else (.attributeName tag (name ++ [shownChar char.toLower]), [])
  | .afterAttributeName tag name, char => afterAttributeNameStep tag name char
  | .beforeAttributeValue tag name, char =>
      if isSpace char then (.beforeAttributeValue tag name, [])
      else if char = '"' ∨ char = '\'' then
        (.attributeValueQuoted char tag name [], [])
      else unquotedStep tag name [] char
  | .attributeValueQuoted quote tag name value, char =>
      if char = quote then
        (.afterAttributeValueQuoted (tag.withAttribute name value), [])
      else if char = '&' then (.unread, [])
      else (.attributeValueQuoted quote tag name (value ++ [shownChar char]), [])
  | .attributeValueUnquoted tag name value, char =>
      unquotedStep tag name value char
  | .afterAttributeValueQuoted tag, char => beforeAttributeNameStep tag char
  | .selfClosingStartTag tag, char =>
      if char = '>' then emit tag else beforeAttributeNameStep tag char
  | .markupDeclaration keyword, char =>
      let read := keyword ++ [char.toLower]
      if read = "doctype".toList then (.doctype, [])
      else if read.isPrefixOf "doctype".toList then (.markupDeclaration read, [])
      else (.unread, [])
  | .doctype, char =>
      if isSpace char then (.doctype, [])
      else if char = '>' then (.data, [.doctype []])
      else (.doctypeName [shownChar char.toLower], [])
  | .doctypeName name, char =>
      if char = '>' then (.data, [.doctype name])
      else if isSpace char then (.unread, [])
      else (.doctypeName (name ++ [shownChar char.toLower]), [])
  | .raw element place, char =>
      (place.step element char).result (.raw element) element
  | .script place, char => (place.step char).result .script "script".toList
  | .unread, _ => (.unread, [])

/-- The state behind a text, and the tokens that were read. -/
def run : State → List Char → State × List Token
  | state, [] => (state, [])
  | state, char :: rest =>
      let here := step state char
      let later := run here.1 rest
      (later.1, here.2 ++ later.2)

/-- What the end of the page does. -/
def atEnd : State → List Token
  | .tagOpen => [.char '<']
  | .endTagOpen => [.char '<', .char '/']
  | .raw _ place => place.pending.map .char
  | .script place => place.pending.map .char
  | _ => []

/-- The tokens of the text behind a state. -/
def tokensFrom (state : State) (text : List Char) : List Token :=
  let read := run state text
  read.2 ++ atEnd read.1

/-- The tokens of a page. -/
def tokens (page : List Char) : List Token := tokensFrom .data page

/-! ## Elements -/

/-- The text in front of the next tag, and the tokens from there on. -/
def contentOf : List Token → List Char × List Token
  | .char char :: rest => (char :: (contentOf rest).1, (contentOf rest).2)
  | rest => ([], rest)

/-- The content of the element with this `id`, if it is text, and the tokens
behind it. -/
def elementById (id : List Char) : List Token → Option (List Char × List Token)
  | [] => none
  | .tag tag :: rest =>
      if tag.closing = false ∧ tag.attributes.lookup "id".toList = some id then
        some (contentOf rest)
      else elementById id rest
  | _ :: rest => elementById id rest

/-! ## Runs -/

theorem run_append (state : State) (front back : List Char) :
    run state (front ++ back) =
      ((run (run state front).1 back).1,
        (run state front).2 ++ (run (run state front).1 back).2) := by
  induction front generalizing state with
  | nil => rfl
  | cons char front induction =>
      rw [List.cons_append, run, run, induction]
      dsimp only
      rw [List.append_assoc]

theorem tokensFrom_append (state : State) (front back : List Char) :
    tokensFrom state (front ++ back) =
      (run state front).2 ++ tokensFrom (run state front).1 back := by
  rw [tokensFrom, run_append]
  dsimp only
  rw [List.append_assoc]
  rfl

theorem contentOf_chars (text : List Char) (tag : Tag) (rest : List Token) :
    contentOf (text.map .char ++ .tag tag :: rest) = (text, .tag tag :: rest) := by
  induction text with
  | nil => rfl
  | cons char text induction =>
      rw [List.map_cons, List.cons_append, contentOf, induction]

/-- The content begins with the text that is there. -/
theorem contentOf_append (text : List Char) (rest : List Token) :
    (contentOf (text.map .char ++ rest)).1 = text ++ (contentOf rest).1 := by
  induction text with
  | nil => rfl
  | cons char text induction =>
      rw [List.map_cons, List.cons_append, contentOf, induction, List.cons_append]

theorem elementById_chars (id text : List Char) (rest : List Token) :
    elementById id (text.map .char ++ rest) = elementById id rest := by
  induction text with
  | nil => rfl
  | cons char text induction =>
      rw [List.map_cons, List.cons_append, elementById, induction]
      nofun

/-- An element that is not among the first tokens is sought behind them. -/
theorem elementById_append {id : List Char} {front : List Token}
    (notThere : elementById id front = none) (rest : List Token) :
    elementById id (front ++ rest) = elementById id rest := by
  induction front with
  | nil => rfl
  | cons token front induction =>
      rw [List.cons_append]
      cases token with
      | tag tag =>
          rw [elementById] at notThere ⊢
          split at notThere
          · cases notThere
          · next notThis => rw [if_neg notThis, induction notThere]
      | doctype name => exact induction notThere
      | char char => exact induction notThere

theorem elementById_endTag (id name : List Char) (rest : List Token) :
    elementById id (.tag ⟨true, name, []⟩ :: rest) = elementById id rest := by
  rw [elementById, if_neg fun found => nomatch found.1]

end Html
