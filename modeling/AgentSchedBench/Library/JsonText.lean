import AgentSchedBench.Library.Json
import Mathlib.Data.List.Basic
import Mathlib.Data.List.TakeWhile
import Mathlib.Data.Nat.Digits.Lemmas

/-!
# JSON as text

`dumps` writes a value as Python's `json.dumps(value, ensure_ascii=False)`
does, and `loads` reads it as `json.loads` does.  A text is given by its
characters.

Strings and numbers that are written are read again, and what follows them
does not change how they are read.
-/

namespace JsonText

/-! ## Writing -/

/-- A digit to the base sixteen. -/
def hexDigit (value : Nat) : Char :=
  "0123456789abcdef".toList.getD value '0'

/-- A character in a string: control characters are escaped, others not. -/
def escapeChar (char : Char) : List Char :=
  if char = '"' then ['\\', '"']
  else if char = '\\' then ['\\', '\\']
  else if char = '\n' then ['\\', 'n']
  else if char = '\r' then ['\\', 'r']
  else if char = '\t' then ['\\', 't']
  else if char.toNat = 12 then ['\\', 'f']
  else if char.toNat = 8 then ['\\', 'b']
  else if char.toNat < 32 then
    ['\\', 'u', '0', '0', hexDigit (char.toNat / 16),
      hexDigit (char.toNat % 16)]
  else [char]

def escape (text : List Char) : List Char := text.flatMap escapeChar

def dumpString (text : String) : List Char :=
  '"' :: (escape text.toList ++ ['"'])

/-- A digit to the base ten. -/
def decimalDigit (value : Nat) : Char :=
  "0123456789".toList.getD value '0'

def dumpNat (value : Nat) : List Char :=
  if value = 0 then ['0']
  else ((Nat.digits 10 value).map decimalDigit).reverse

def dumpInt : Int → List Char
  | .ofNat value => dumpNat value
  | .negSucc value => '-' :: dumpNat (value + 1)

mutual

/-- `json.dumps(value, ensure_ascii=False)` -/
def dumps : Json → List Char
  | .null => "null".toList
  | .bool true => "true".toList
  | .bool false => "false".toList
  | .int value => dumpInt value
  | .float text => text.toList
  | .str value => dumpString value
  | .arr items => '[' :: (dumpItems items ++ [']'])
  | .obj fields => '{' :: (dumpFields fields ++ ['}'])

/-- Items, with a comma and a blank between them. -/
def dumpItems : List Json → List Char
  | [] => []
  | item :: rest => dumps item ++ dumpMoreItems rest

def dumpMoreItems : List Json → List Char
  | [] => []
  | item :: rest => ',' :: ' ' :: (dumps item ++ dumpMoreItems rest)

/-- Fields, with a comma and a blank between them. -/
def dumpFields : List (String × Json) → List Char
  | [] => []
  | (name, value) :: rest =>
      dumpString name ++ ':' :: ' ' :: (dumps value ++ dumpMoreFields rest)

def dumpMoreFields : List (String × Json) → List Char
  | [] => []
  | (name, value) :: rest =>
      ',' :: ' ' ::
        (dumpString name ++ ':' :: ' ' ::
          (dumps value ++ dumpMoreFields rest))

end

/-! ## Reading -/

def isWhitespace (char : Char) : Bool :=
  char == ' ' || char == '\t' || char == '\n' || char == '\r'

def skipWhitespace (text : List Char) : List Char :=
  text.dropWhile isWhitespace

/-- The characters up to the closing quote, and what follows it. -/
def scanBody : List Char → Option (List Char × List Char)
  | [] => none
  | '"' :: rest => some ([], rest)
  | '\\' :: char :: rest =>
      (scanBody rest).map fun scanned =>
        ('\\' :: char :: scanned.1, scanned.2)
  | char :: rest =>
      (scanBody rest).map fun scanned => (char :: scanned.1, scanned.2)

/-- The value of a digit to the base sixteen. -/
def hexValue (char : Char) : Option Nat :=
  if char.isDigit then some (char.toNat - '0'.toNat)
  else if 'a' ≤ char ∧ char ≤ 'f' then some (char.toNat - 'a'.toNat + 10)
  else if 'A' ≤ char ∧ char ≤ 'F' then some (char.toNat - 'A'.toNat + 10)
  else none

/-- `_decode_uXXXX` -/
def decodeUnit (digits : List Char) : Option Nat :=
  (digits.mapM hexValue).map fun values => Nat.ofDigits 16 values.reverse

/-- `BACKSLASH` -/
def backslash : Char → Option Nat
  | '"' => some '"'.toNat
  | '\\' => some '\\'.toNat
  | '/' => some '/'.toNat
  | 'b' => some 8
  | 'f' => some 12
  | 'n' => some 10
  | 'r' => some 13
  | 't' => some 9
  | _ => none

/-- The code points and surrogates that the characters of a string stand for. -/
def decodeUnits : List Char → Option (List Nat)
  | [] => some []
  | '\\' :: 'u' :: a :: b :: c :: d :: rest => do
      let unit ← decodeUnit [a, b, c, d]
      let units ← decodeUnits rest
      return unit :: units
  | '\\' :: char :: rest => do
      let unit ← backslash char
      let units ← decodeUnits rest
      return unit :: units
  | char :: rest =>
      if char = '\\' ∨ char.toNat < 32 then none
      else (decodeUnits rest).map (char.toNat :: ·)

/-- A surrogate without its other half; a character cannot be one. -/
def replacement : Char := Char.ofNat 0xfffd

def unitChar (unit : Nat) : Char :=
  if 0xd800 ≤ unit ∧ unit ≤ 0xdfff then replacement else Char.ofNat unit

/-- The characters of a string: surrogates are joined. -/
def joinUnits : List Nat → List Char
  | [] => []
  | [unit] => [unitChar unit]
  | unit :: next :: rest =>
      if 0xd800 ≤ unit ∧ unit ≤ 0xdbff ∧ 0xdc00 ≤ next ∧ next ≤ 0xdfff then
        Char.ofNat (0x10000 + (unit - 0xd800) * 0x400 + (next - 0xdc00)) ::
          joinUnits rest
      else unitChar unit :: joinUnits (next :: rest)

/-- `scanstring`, after the opening quote. -/
def scanString (text : List Char) : Option (String × List Char) := do
  let (body, rest) ← scanBody text
  let units ← decodeUnits body
  return (String.ofList (joinUnits units), rest)

/-- The part of a number before a point. -/
def scanDigits : List Char → Option (List Char × List Char)
  | [] => none
  | char :: rest =>
      if char = '0' then some (['0'], rest)
      else if char.isDigit then
        some (char :: rest.takeWhile Char.isDigit,
          rest.dropWhile Char.isDigit)
      else none

def scanFraction : List Char → List Char × List Char
  | '.' :: rest =>
      let digits := rest.takeWhile Char.isDigit
      if digits = [] then ([], '.' :: rest)
      else ('.' :: digits, rest.dropWhile Char.isDigit)
  | text => ([], text)

/-- The sign of an exponent. -/
def scanSign : List Char → List Char × List Char
  | '+' :: rest => (['+'], rest)
  | '-' :: rest => (['-'], rest)
  | text => ([], text)

def scanExponent : List Char → List Char × List Char
  | [] => ([], [])
  | char :: rest =>
      let (sign, unsigned) := scanSign rest
      let digits := unsigned.takeWhile Char.isDigit
      if (char = 'e' ∨ char = 'E') ∧ digits ≠ [] then
        (char :: (sign ++ digits), unsigned.dropWhile Char.isDigit)
      else ([], char :: rest)

def decimalValue (digits : List Char) : Nat :=
  Nat.ofDigits 10 (digits.map fun char => char.toNat - '0'.toNat).reverse

/-- The number of these parts, with a minus sign or without. -/
def numberValue (negative : Bool) (digits fraction exponent : List Char) :
    Json :=
  let value : Int := decimalValue digits
  let front := if negative then ['-'] else []
  if fraction = [] ∧ exponent = [] then
    .int (if negative then -value else value)
  else .float (String.ofList (front ++ digits ++ fraction ++ exponent))

/-- A number, whose minus sign has been read or not. -/
def scanUnsigned (negative : Bool) (text : List Char) :
    Option (Json × List Char) :=
  (scanDigits text).map fun digits =>
    let fraction := scanFraction digits.2
    let exponent := scanExponent fraction.2
    (numberValue negative digits.1 fraction.1 exponent.1, exponent.2)

/-- `match_number` -/
def scanNumber : List Char → Option (Json × List Char)
  | '-' :: rest => scanUnsigned true rest
  | text => scanUnsigned false text

/-- What follows a front. -/
def stripFront : List Char → List Char → Option (List Char)
  | [], text => some text
  | _ :: _, [] => none
  | char :: front, first :: text =>
      if char = first then stripFront front text else none

def literals : List (List Char × Json) :=
  [("null".toList, .null), ("true".toList, .bool true),
    ("false".toList, .bool false), ("NaN".toList, .float "NaN"),
    ("Infinity".toList, .float "Infinity"),
    ("-Infinity".toList, .float "-Infinity")]

def scanLiteral (text : List Char) : Option (Json × List Char) :=
  literals.findSome? fun literal =>
    (stripFront literal.1 text).map fun rest => (literal.2, rest)

/-- A value that is no string, array or object. -/
def scanScalar (text : List Char) : Option (Json × List Char) :=
  match scanNumber text with
  | some scanned => some scanned
  | none => scanLiteral text

/-- A dictionary keeps the last value of a name, at its first place. -/
def dictOf (pairs : List (String × Json)) : List (String × Json) :=
  pairs.foldl
    (fun fields pair =>
      if (fieldOf fields pair.1).isSome then
        fields.map fun field => if field.1 = pair.1 then pair else field
      else fields ++ [pair])
    []

mutual

/-- `scan_once` -/
def scanOnce : Nat → List Char → Option (Json × List Char)
  | 0, _ => none
  | _ + 1, [] => none
  | fuel + 1, char :: text =>
      if char = '"' then
        (scanString text).map fun scanned => (.str scanned.1, scanned.2)
      else if char = '{' then
        match skipWhitespace text with
        | '}' :: rest => some (.obj [], rest)
        | fields =>
            (scanFields fuel fields).map fun scanned =>
              (.obj (dictOf scanned.1), scanned.2)
      else if char = '[' then
        match skipWhitespace text with
        | ']' :: rest => some (.arr [], rest)
        | items =>
            (scanItems fuel items).map fun scanned =>
              (.arr scanned.1, scanned.2)
      else scanScalar (char :: text)

/-- `JSONArray`, at an item. -/
def scanItems : Nat → List Char → Option (List Json × List Char)
  | 0, _ => none
  | fuel + 1, text => do
      let (item, rest) ← scanOnce fuel text
      match skipWhitespace rest with
      | ']' :: rest => some ([item], rest)
      | ',' :: rest =>
          let (items, rest) ← scanItems fuel (skipWhitespace rest)
          return (item :: items, rest)
      | _ => none

/-- `JSONObject`, at a field. -/
def scanFields : Nat → List Char → Option (List (String × Json) × List Char)
  | fuel + 1, '"' :: text => do
      let (name, rest) ← scanString text
      match skipWhitespace rest with
      | ':' :: rest =>
          let (value, rest) ← scanOnce fuel (skipWhitespace rest)
          match skipWhitespace rest with
          | '}' :: rest => some ([(name, value)], rest)
          | ',' :: rest =>
              let (fields, rest) ← scanFields fuel (skipWhitespace rest)
              return ((name, value) :: fields, rest)
          | _ => none
      | _ => none
  | _, _ => none

end

/-- `json.loads(text)` -/
def loads (text : List Char) : Option Json := do
  let (value, rest) ← scanOnce (2 * text.length + 1) (skipWhitespace text)
  if skipWhitespace rest = [] then return value else none

/-! ## Strings -/

theorem scanBody_cons {char : Char} (notQuote : char ≠ '"')
    (notBackslash : char ≠ '\\') (rest : List Char) :
    scanBody (char :: rest) =
      (scanBody rest).map fun scanned => (char :: scanned.1, scanned.2) := by
  rw [scanBody.eq_def]
  split <;> simp_all

theorem scanBody_backslash (char : Char) (rest : List Char) :
    scanBody ('\\' :: char :: rest) =
      (scanBody rest).map fun scanned =>
        ('\\' :: char :: scanned.1, scanned.2) := by
  rw [scanBody]

theorem hexDigit_plain (value : Nat) :
    hexDigit value ≠ '"' ∧ hexDigit value ≠ '\\' := by
  by_cases small : value < 16
  · revert value
    decide
  · have beyond : "0123456789abcdef".toList.length ≤ value := by
      simpa using small
    rw [hexDigit, List.getD_eq_getElem?_getD,
      List.getElem?_eq_none beyond]
    decide

/-- The characters of an escape, one after the other. -/
theorem scanBody_escapeChar (char : Char) (rest : List Char) :
    scanBody (escapeChar char ++ rest) =
      (scanBody rest).map fun scanned =>
        (escapeChar char ++ scanned.1, scanned.2) := by
  have twoChars (second : Char) :
      scanBody (['\\', second] ++ rest) =
        (scanBody rest).map fun scanned =>
          (['\\', second] ++ scanned.1, scanned.2) :=
    scanBody_backslash second rest
  rw [escapeChar]
  split
  · exact twoChars _
  next notQuote =>
  split
  · exact twoChars _
  next notBackslash =>
  split
  · exact twoChars _
  split
  · exact twoChars _
  split
  · exact twoChars _
  split
  · exact twoChars _
  split
  · exact twoChars _
  split
  · obtain ⟨highQuote, highBackslash⟩ := hexDigit_plain (char.toNat / 16)
    obtain ⟨lowQuote, lowBackslash⟩ := hexDigit_plain (char.toNat % 16)
    show scanBody ('\\' :: 'u' :: '0' :: '0' :: _ :: _ :: rest) = _
    rw [scanBody_backslash, scanBody_cons (by decide) (by decide),
      scanBody_cons (by decide) (by decide),
      scanBody_cons highQuote highBackslash,
      scanBody_cons lowQuote lowBackslash]
    simp only [Option.map_map, Function.comp_def, List.cons_append,
      List.nil_append]
  · exact scanBody_cons notQuote notBackslash rest

theorem scanBody_escape (text rest : List Char) :
    scanBody (escape text ++ '"' :: rest) = some (escape text, rest) := by
  induction text with
  | nil => rfl
  | cons char text induction =>
      rw [escape, List.flatMap_cons, ← escape, List.append_assoc,
        scanBody_escapeChar, induction]
      rfl

/-- A control character is read as it was written. -/
theorem decodeUnit_control :
    ∀ code < 32,
      decodeUnit ['0', '0', hexDigit (code / 16), hexDigit (code % 16)] =
        some code := by
  decide

theorem decodeUnits_backslash {char : Char} (notUnit : char ≠ 'u')
    (rest : List Char) :
    decodeUnits ('\\' :: char :: rest) =
      (backslash char).bind fun unit =>
        (decodeUnits rest).map (unit :: ·) := by
  rw [decodeUnits.eq_def]
  split
  · next same => cases same
  · next same =>
      cases same
      exact absurd rfl notUnit
  · next same =>
      cases same
      cases backslash char <;> cases decodeUnits rest <;> rfl
  · next other same =>
      obtain ⟨rfl, rfl⟩ := List.cons.inj same
      exact absurd rfl (other char rest rfl)

theorem decodeUnits_cons {char : Char} (notBackslash : char ≠ '\\')
    (notControl : ¬ char.toNat < 32) (rest : List Char) :
    decodeUnits (char :: rest) =
      (decodeUnits rest).map (char.toNat :: ·) := by
  rw [decodeUnits.eq_def]
  split <;> simp_all

theorem decodeUnits_escapeChar (char : Char) (rest : List Char) :
    decodeUnits (escapeChar char ++ rest) =
      (decodeUnits rest).map (char.toNat :: ·) := by
  have twoChars {second : Char} (notUnit : second ≠ 'u')
      (isChar : backslash second = some char.toNat) :
      decodeUnits (['\\', second] ++ rest) =
        (decodeUnits rest).map (char.toNat :: ·) := by
    show decodeUnits ('\\' :: second :: rest) = _
    rw [decodeUnits_backslash notUnit, isChar, Option.bind_some]
  rw [escapeChar]
  split
  · next isChar => exact twoChars (by decide) (by rw [isChar]; rfl)
  split
  · next isChar => exact twoChars (by decide) (by rw [isChar]; rfl)
  next notBackslash =>
  split
  · next isChar => exact twoChars (by decide) (by rw [isChar]; rfl)
  split
  · next isChar => exact twoChars (by decide) (by rw [isChar]; rfl)
  split
  · next isChar => exact twoChars (by decide) (by rw [isChar]; rfl)
  split
  · next isChar => exact twoChars (by decide) (by rw [isChar]; rfl)
  split
  · next isChar => exact twoChars (by decide) (by rw [isChar]; rfl)
  split
  · next isControl =>
      show decodeUnits ('\\' :: 'u' :: '0' :: '0' :: _ :: _ :: rest) = _
      rw [decodeUnits, decodeUnit_control _ isControl]
      cases decodeUnits rest <;> rfl
  · next notControl => exact decodeUnits_cons notBackslash notControl rest

theorem decodeUnits_escape (text : List Char) :
    decodeUnits (escape text) = some (text.map Char.toNat) := by
  induction text with
  | nil => rfl
  | cons char text induction =>
      rw [escape, List.flatMap_cons, ← escape, decodeUnits_escapeChar,
        induction]
      rfl

/-- A character is no surrogate. -/
theorem not_surrogate (char : Char) :
    ¬ (0xd800 ≤ char.toNat ∧ char.toNat ≤ 0xdfff) := by
  have valid := char.valid
  rw [UInt32.isValidChar, Nat.isValidChar] at valid
  show ¬ (0xd800 ≤ char.val.toNat ∧ char.val.toNat ≤ 0xdfff)
  omega

theorem unitChar_toNat (char : Char) : unitChar char.toNat = char := by
  rw [unitChar, if_neg (not_surrogate char), Char.ofNat_toNat]

theorem joinUnits_toNat (text : List Char) :
    joinUnits (text.map Char.toNat) = text := by
  induction text with
  | nil => rfl
  | cons char text induction =>
      cases text with
      | nil =>
          show [unitChar char.toNat] = _
          rw [unitChar_toNat]
      | cons next rest =>
          rw [List.map_cons, List.map_cons, joinUnits, if_neg,
            unitChar_toNat, ← List.map_cons, induction]
          rintro ⟨atLeast, atMost, _⟩
          exact not_surrogate char ⟨atLeast, by omega⟩

/-- A string that is written is read again. -/
theorem scanString_escape (text : String) (rest : List Char) :
    scanString (escape text.toList ++ '"' :: rest) = some (text, rest) := by
  rw [scanString, scanBody_escape]
  show (decodeUnits (escape text.toList)).bind _ = _
  rw [decodeUnits_escape]
  show some (String.ofList (joinUnits _), rest) = _
  rw [joinUnits_toNat, String.ofList_toList]

theorem scanBody_append {text body rest : List Char}
    (scanned : scanBody text = some (body, rest)) (more : List Char) :
    scanBody (text ++ more) = some (body, rest ++ more) := by
  induction text using scanBody.induct generalizing body with
  | case1 => cases scanned
  | case2 rest =>
      cases scanned
      rfl
  | case3 char text induction =>
      rw [scanBody_backslash, Option.map_eq_some_iff] at scanned
      obtain ⟨⟨inner, _⟩, isInner, same⟩ := scanned
      cases same
      rw [List.cons_append, List.cons_append, scanBody_backslash,
        induction isInner]
      rfl
  | case4 char text notQuote notEscape induction =>
      by_cases isBackslash : char = '\\'
      · subst isBackslash
        cases text with
        | nil => cases scanned
        | cons next text => exact absurd rfl (notEscape next text rfl)
      · rw [scanBody_cons notQuote isBackslash,
          Option.map_eq_some_iff] at scanned
        obtain ⟨⟨inner, _⟩, isInner, same⟩ := scanned
        cases same
        rw [List.cons_append, scanBody_cons notQuote isBackslash,
          induction isInner]
        rfl

/-- What follows a string does not change how it is read. -/
theorem scanString_append {text rest : List Char} {value : String}
    (scanned : scanString text = some (value, rest)) (more : List Char) :
    scanString (text ++ more) = some (value, rest ++ more) := by
  rw [scanString] at scanned ⊢
  obtain ⟨⟨body, _⟩, isBody, decoded⟩ := Option.bind_eq_some_iff.mp scanned
  obtain ⟨units, isUnits, same⟩ := Option.bind_eq_some_iff.mp decoded
  cases same
  rw [scanBody_append isBody more]
  show (decodeUnits body).bind _ = _
  rw [isUnits]
  rfl

/-! ## Numbers -/

/-- A character that a number may go on with. -/
def isNumberChar (char : Char) : Bool :=
  char.isDigit || char == '.' || char == 'e' || char == 'E' ||
    char == '+' || char == '-'

/-- A number ends before the text. -/
def Stops (text : List Char) : Prop :=
  ∀ char ∈ text.head?, isNumberChar char = false

/-- What follows the first character that fails a test is left alone. -/
theorem takeWhile_append_stop {test : Char → Bool} {text more : List Char}
    (stops :
      ∀ char ∈ (text.dropWhile test ++ more).head?, test char = false) :
    (text ++ more).takeWhile test = text.takeWhile test ∧
      (text ++ more).dropWhile test = text.dropWhile test ++ more := by
  induction text with
  | nil =>
      cases more with
      | nil => exact ⟨rfl, rfl⟩
      | cons char more =>
          have failed := stops char rfl
          simp [failed]
  | cons char text induction =>
      cases passed : test char with
      | false => simp [passed]
      | true =>
          rw [List.dropWhile_cons_of_pos passed] at stops
          obtain ⟨taken, dropped⟩ := induction stops
          simp only [List.cons_append, List.takeWhile_cons_of_pos passed,
            List.dropWhile_cons_of_pos passed, taken, dropped, and_self]

section Append

variable {text rest more : List Char}

theorem scanDigits_append {digits : List Char}
    (scanned : scanDigits text = some (digits, rest))
    (stops : ∀ char ∈ (rest ++ more).head?, char.isDigit = false) :
    scanDigits (text ++ more) = some (digits, rest ++ more) := by
  cases text with
  | nil => cases scanned
  | cons char text =>
      rw [scanDigits] at scanned
      rw [List.cons_append, scanDigits]
      split at scanned
      · next isZero =>
          cases scanned
          rw [if_pos isZero]
      · next notZero =>
          rw [if_neg notZero]
          split at scanned
          · next isDigit =>
              cases scanned
              obtain ⟨taken, dropped⟩ := takeWhile_append_stop stops
              rw [if_pos isDigit, taken, dropped]
          · cases scanned

theorem scanFraction_append {fraction : List Char}
    (scanned : scanFraction text = (fraction, rest))
    (stops : ∀ char ∈ (rest ++ more).head?,
      char.isDigit = false ∧ char ≠ '.') :
    scanFraction (text ++ more) = (fraction, rest ++ more) := by
  rw [scanFraction.eq_def] at scanned
  split at scanned
  · next tail =>
      rw [List.cons_append, scanFraction]
      dsimp only at scanned ⊢
      split at scanned
      · cases scanned
        exact absurd rfl (stops '.' rfl).2
      · next someDigits =>
          cases scanned
          obtain ⟨taken, dropped⟩ := takeWhile_append_stop
            (fun char member => (stops char member).1)
          rw [taken, dropped, if_neg someDigits]
  · next noPoint =>
      cases scanned
      rw [scanFraction.eq_def]
      split
      · next tail same =>
          rw [same] at stops
          exact absurd rfl (stops '.' rfl).2
      · rfl

theorem scanSign_append (nonempty : text ≠ []) :
    scanSign (text ++ more) = ((scanSign text).1, (scanSign text).2 ++ more) := by
  cases text with
  | nil => exact absurd rfl nonempty
  | cons char text =>
      rw [List.cons_append, scanSign.eq_def, scanSign.eq_def]
      split <;> split <;> simp_all

theorem not_isNumberChar {char : Char}
    (stops : isNumberChar char = false) :
    char.isDigit = false ∧ char ≠ '.' ∧ ¬ (char = 'e' ∨ char = 'E') ∧
      char ≠ '-' := by
  simp only [isNumberChar, Bool.or_eq_false_iff, beq_eq_false_iff_ne] at stops
  tauto

theorem scanExponent_none {char : Char} (stops : isNumberChar char = false)
    (text : List Char) :
    scanExponent (char :: text) = ([], char :: text) := by
  rw [scanExponent]
  exact if_neg fun both => (not_isNumberChar stops).2.2.1 both.1

theorem scanExponent_append {exponent : List Char}
    (scanned : scanExponent text = (exponent, rest))
    (stops : Stops (rest ++ more)) :
    scanExponent (text ++ more) = (exponent, rest ++ more) := by
  cases text with
  | nil =>
      cases scanned
      cases more with
      | nil => rfl
      | cons char more => exact scanExponent_none (stops char rfl) more
  | cons char text =>
      rw [scanExponent] at scanned
      dsimp only at scanned
      split at scanned
      · next isExponent =>
          have nonempty : text ≠ [] := by
            rintro rfl
            exact isExponent.2 rfl
          cases scanned
          obtain ⟨taken, dropped⟩ := takeWhile_append_stop
            (fun char member => (not_isNumberChar (stops char member)).1)
          rw [List.cons_append, scanExponent, scanSign_append nonempty]
          dsimp only
          rw [taken, dropped, if_pos isExponent]
      · cases scanned
        exact scanExponent_none (stops char rfl) _

/-- What an exponent leaves goes on as what it was given, or stops. -/
theorem scanExponent_stops {exponent : List Char}
    (scanned : scanExponent text = (exponent, rest))
    (stops : Stops (rest ++ more)) :
    ∀ char ∈ (text ++ more).head?, char.isDigit = false ∧ char ≠ '.' := by
  intro char member
  cases text with
  | nil =>
      cases scanned
      have failed := not_isNumberChar (stops char member)
      exact ⟨failed.1, failed.2.1⟩
  | cons first text =>
      cases member
      rw [scanExponent] at scanned
      dsimp only at scanned
      split at scanned
      · next isExponent =>
          rcases isExponent.1 with rfl | rfl
          · decide
          · decide
      · cases scanned
        have failed := not_isNumberChar (stops char rfl)
        exact ⟨failed.1, failed.2.1⟩

theorem scanFraction_stops {fraction : List Char}
    (scanned : scanFraction text = (fraction, rest))
    (stops : ∀ char ∈ (rest ++ more).head?, char.isDigit = false) :
    ∀ char ∈ (text ++ more).head?, char.isDigit = false := by
  rw [scanFraction.eq_def] at scanned
  split at scanned
  · intro char member
    cases member
    decide
  · cases scanned
    exact stops

theorem scanUnsigned_append {negative : Bool} {value : Json}
    (scanned : scanUnsigned negative text = some (value, rest))
    (stops : Stops (rest ++ more)) :
    scanUnsigned negative (text ++ more) = some (value, rest ++ more) := by
  rw [scanUnsigned] at scanned
  obtain ⟨⟨digits, afterDigits⟩, isDigits, same⟩ :=
    Option.map_eq_some_iff.mp scanned
  cases same
  have fractionStops := scanExponent_stops rfl stops
  have digitsStop := scanFraction_stops rfl
    fun char member => (fractionStops char member).1
  have fraction :
      scanFraction (afterDigits ++ more) =
        ((scanFraction afterDigits).1,
          (scanFraction afterDigits).2 ++ more) :=
    scanFraction_append rfl fractionStops
  have exponent :
      scanExponent ((scanFraction afterDigits).2 ++ more) =
        ((scanExponent (scanFraction afterDigits).2).1,
          (scanExponent (scanFraction afterDigits).2).2 ++ more) :=
    scanExponent_append rfl stops
  rw [scanUnsigned, scanDigits_append isDigits digitsStop, Option.map_some]
  simp only [fraction, exponent]

theorem scanUnsigned_head {negative : Bool} {scanned : Json × List Char}
    (isNumber : scanUnsigned negative text = some scanned) :
    ∃ char tail, text = char :: tail ∧ char.isDigit = true := by
  cases text with
  | nil => cases isNumber
  | cons char tail =>
      refine ⟨char, tail, rfl, ?_⟩
      rw [scanUnsigned, scanDigits] at isNumber
      split at isNumber
      · next isZero =>
          rw [isZero]
          decide
      · split at isNumber
        · next isDigit => exact isDigit
        · cases isNumber

theorem scanNumber_append {value : Json}
    (scanned : scanNumber text = some (value, rest))
    (stops : Stops (rest ++ more)) :
    scanNumber (text ++ more) = some (value, rest ++ more) := by
  rw [scanNumber.eq_def] at scanned
  split at scanned
  · exact scanUnsigned_append scanned stops
  · next noMinus =>
      obtain ⟨char, tail, rfl, isDigit⟩ := scanUnsigned_head scanned
      rw [List.cons_append, scanNumber.eq_def]
      split
      · next same =>
          cases same
          cases isDigit
      · exact scanUnsigned_append scanned stops

/-! ## Other scalars -/

theorem stripFront_eq_some {front : List Char} :
    stripFront front text = some rest ↔ text = front ++ rest := by
  induction front generalizing text with
  | nil =>
      rw [stripFront, Option.some_inj]
      exact Iff.rfl
  | cons char front induction =>
      cases text with
      | nil => simp [stripFront]
      | cons first text =>
          rw [stripFront]
          split
          · next same => simp [same, induction]
          · next other =>
              simp only [List.cons_append, List.cons.injEq, reduceCtorEq,
                false_iff]
              exact fun same => other same.1.symm

/-- A literal is read, and it is no number. -/
theorem scanLiteral_literal :
    ∀ literal ∈ literals,
      scanLiteral (literal.1 ++ rest) = some (literal.2, rest) ∧
        scanNumber (literal.1 ++ rest) = none := by
  intro literal member
  simp only [literals, List.mem_cons, List.not_mem_nil, or_false] at member
  rcases member with rfl | rfl | rfl | rfl | rfl | rfl <;>
    exact ⟨rfl, rfl⟩

theorem literal_of_scanLiteral {value : Json}
    (scanned : scanLiteral text = some (value, rest)) :
    ∃ literal ∈ literals, text = literal.1 ++ rest ∧ value = literal.2 := by
  obtain ⟨literal, member, found⟩ :=
    List.exists_of_findSome?_eq_some scanned
  obtain ⟨_, stripped, same⟩ := Option.map_eq_some_iff.mp found
  cases same
  exact ⟨literal, member, stripFront_eq_some.mp stripped, rfl⟩

theorem scanScalar_literal {literal : List Char × Json}
    (member : literal ∈ literals) :
    scanScalar (literal.1 ++ rest) = some (literal.2, rest) := by
  obtain ⟨isLiteral, noNumber⟩ := scanLiteral_literal literal member
  rw [scanScalar, noNumber, isLiteral]

theorem scanScalar_append {value : Json}
    (scanned : scanScalar text = some (value, rest))
    (stops : Stops (rest ++ more)) :
    scanScalar (text ++ more) = some (value, rest ++ more) := by
  rw [scanScalar] at scanned
  split at scanned
  · next isNumber =>
      cases scanned
      rw [scanScalar, scanNumber_append isNumber stops]
  · obtain ⟨literal, member, rfl, rfl⟩ := literal_of_scanLiteral scanned
    rw [List.append_assoc, scanScalar_literal member]

end Append

/-! ## Integers -/

theorem digit_bounds {char : Char} (isDigit : char.isDigit = true) :
    48 ≤ char.toNat ∧ char.toNat ≤ 57 := by
  simp only [Char.isDigit, Bool.and_eq_true, decide_eq_true_eq, ge_iff_le,
    UInt32.le_iff_toNat_le] at isDigit
  exact isDigit

theorem decimalDigit_digit :
    ∀ digit < 10,
      (decimalDigit digit).isDigit = true ∧
        (decimalDigit digit).toNat - '0'.toNat = digit ∧
        (decimalDigit digit = '0' → digit = 0) := by
  decide

theorem dumpNat_digits (value : Nat) :
    (∀ char ∈ dumpNat value, char.isDigit = true) ∧
      decimalValue (dumpNat value) = value := by
  rw [dumpNat]
  split
  · next isZero =>
      subst isZero
      exact ⟨by simp, by decide⟩
  · constructor
    · intro char member
      rw [List.mem_reverse] at member
      obtain ⟨digit, isDigit, rfl⟩ := List.mem_map.mp member
      exact (decimalDigit_digit digit
        (Nat.digits_lt_base (by decide) isDigit)).1
    · have digits :
          (Nat.digits 10 value).map
              (fun digit => (decimalDigit digit).toNat - '0'.toNat) =
            Nat.digits 10 value := by
        conv_rhs => rw [← List.map_id (Nat.digits 10 value)]
        apply List.map_congr_left
        intro digit isDigit
        exact (decimalDigit_digit digit
          (Nat.digits_lt_base (by decide) isDigit)).2.1
      rw [decimalValue, List.map_reverse, List.reverse_reverse,
        List.map_map]
      exact (congrArg (Nat.ofDigits 10) digits).trans
        (Nat.ofDigits_digits 10 value)

theorem first_digit_ne_zero {value : Nat} (notZero : value ≠ 0)
    {tail : List Char} :
    ((Nat.digits 10 value).map decimalDigit).reverse ≠ '0' :: tail := by
  intro isText
  rw [List.reverse_eq_cons_iff, List.map_eq_append_iff] at isText
  obtain ⟨front, back, isDigits, _, isLast⟩ := isText
  obtain ⟨last, rfl, isZero⟩ := List.map_eq_singleton_iff.mp isLast
  have isDigit : last ∈ Nat.digits 10 value := by
    rw [isDigits]
    exact List.mem_append_right _ List.mem_cons_self
  have lastZero := (decimalDigit_digit last
    (Nat.digits_lt_base (by decide) isDigit)).2.2 isZero
  have notLast := Nat.getLast_digit_ne_zero 10 notZero
  simp only [isDigits, List.getLast_append_singleton] at notLast
  exact notLast lastZero

/-- The digits of a number begin with a zero only if that is all. -/
theorem scanDigits_dumpNat (value : Nat) :
    scanDigits (dumpNat value) = some (dumpNat value, []) := by
  have allDigits := (dumpNat_digits value).1
  rw [dumpNat] at allDigits ⊢
  split
  · rfl
  · next notZero =>
      rw [if_neg notZero] at allDigits
      cases isText : ((Nat.digits 10 value).map decimalDigit).reverse with
      | nil =>
          rw [List.reverse_eq_nil_iff, List.map_eq_nil_iff,
            Nat.digits_eq_nil_iff_eq_zero] at isText
          exact absurd isText notZero
      | cons char tail =>
          rw [isText] at allDigits
          have notFirst : char ≠ '0' := by
            rintro rfl
            exact first_digit_ne_zero notZero isText
          have taken := List.takeWhile_eq_self_iff.mpr
            fun other member =>
              allDigits other (List.mem_cons_of_mem _ member)
          have dropped := List.dropWhile_eq_nil_iff.mpr
            fun other member =>
              allDigits other (List.mem_cons_of_mem _ member)
          rw [scanDigits, if_neg notFirst,
            if_pos (allDigits char List.mem_cons_self), taken, dropped]

theorem scanNumber_dumpInt (value : Int) :
    scanNumber (dumpInt value) = some (.int value, []) := by
  have unsigned (negative : Bool) (value : Nat) :
      scanUnsigned negative (dumpNat value) =
        some (.int (if negative then -value else value), []) := by
    rw [scanUnsigned, scanDigits_dumpNat, Option.map_some]
    show some (numberValue negative (dumpNat value) [] [], _) = _
    rw [numberValue, if_pos ⟨rfl, rfl⟩, (dumpNat_digits value).2]
    rfl
  cases value with
  | ofNat value =>
      rw [dumpInt, scanNumber.eq_def]
      split
      · next isText =>
          have isDigit := (dumpNat_digits value).1 '-' (by simp [isText])
          cases isDigit
      · exact unsigned false value
  | negSucc value =>
      exact unsigned true (value + 1)

end JsonText
