import AgentSchedBench.Library.JsonRoundTrip

/-!
# Indented JSON

`dumpsIndented` writes a value as Python's `json.dumps(value, indent=…)` does:
each item and each field stands on a line of its own, and a character beyond
ASCII is written as one or two units of sixteen bits.  What is written is read
again.
-/

namespace JsonText

/-! ## Characters beyond ASCII -/

/-- The digits of a unit of sixteen bits. -/
def unitDigits (unit : Nat) : List Char :=
  [hexDigit (unit / 4096), hexDigit (unit / 256 % 16), hexDigit (unit / 16 % 16),
    hexDigit (unit % 16)]

def escapeUnit (unit : Nat) : List Char := '\\' :: 'u' :: unitDigits unit

/-- The units of a character: two surrogates where one unit is too small. -/
def charUnits (char : Char) : List Nat :=
  if char.toNat < 0x10000 then [char.toNat]
  else
    [0xd800 + (char.toNat - 0x10000) / 0x400,
      0xdc00 + (char.toNat - 0x10000) % 0x400]

/-- A character in a string of which each character is ASCII. -/
def escapeAsciiChar (char : Char) : List Char :=
  if char.toNat < 127 then escapeChar char
  else (charUnits char).flatMap escapeUnit

def escapeAscii (text : List Char) : List Char := text.flatMap escapeAsciiChar

def dumpAsciiString (text : String) : List Char :=
  '"' :: (escapeAscii text.toList ++ ['"'])

theorem escapeAscii_cons (char : Char) (text : List Char) :
    escapeAscii (char :: text) = escapeAsciiChar char ++ escapeAscii text := rfl

theorem hexValue_hexDigit : ∀ digit < 16, hexValue (hexDigit digit) = some digit := by
  decide

theorem decodeUnit_unitDigits {unit : Nat} (small : unit < 0x10000) :
    decodeUnit (unitDigits unit) = some unit := by
  rw [decodeUnit, unitDigits, List.mapM_cons, List.mapM_cons, List.mapM_cons,
    List.mapM_cons, List.mapM_nil, hexValue_hexDigit _ (by omega),
    hexValue_hexDigit _ (by omega), hexValue_hexDigit _ (by omega),
    hexValue_hexDigit _ (by omega)]
  show some (unit % 16 + 16 * (unit / 16 % 16 + 16 * (unit / 256 % 16 +
    16 * (unit / 4096 + 16 * 0)))) = some unit
  rw [Option.some_inj]
  omega

theorem decodeUnits_escapeUnit {unit : Nat} (small : unit < 0x10000)
    (rest : List Char) :
    decodeUnits (escapeUnit unit ++ rest) = (decodeUnits rest).map (unit :: ·) := by
  have digits := decodeUnit_unitDigits small
  rw [unitDigits] at digits
  show decodeUnits ('\\' :: 'u' :: _ :: _ :: _ :: _ :: rest) = _
  rw [decodeUnits, digits]
  cases decodeUnits rest <;> rfl

theorem char_bound (char : Char) : char.toNat < 0x110000 := by
  have valid := char.valid
  rw [UInt32.isValidChar, Nat.isValidChar] at valid
  show char.val.toNat < 0x110000
  omega

theorem charUnits_small (char : Char) : ∀ unit ∈ charUnits char, unit < 0x10000 := by
  have bound := char_bound char
  intro unit member
  rw [charUnits] at member
  split at member
  · rw [List.mem_singleton.mp member]
    assumption
  · rw [List.mem_cons, List.mem_singleton] at member
    omega

theorem decodeUnits_escapeUnits {units : List Nat}
    (small : ∀ unit ∈ units, unit < 0x10000) (rest : List Char) :
    decodeUnits (units.flatMap escapeUnit ++ rest) =
      (decodeUnits rest).map (units ++ ·) := by
  induction units with
  | nil => simp
  | cons unit units induction =>
      obtain ⟨unitSmall, small⟩ := List.forall_mem_cons.mp small
      rw [List.flatMap_cons, List.append_assoc, decodeUnits_escapeUnit unitSmall,
        induction small, Option.map_map]
      rfl

theorem decodeUnits_escapeAsciiChar (char : Char) (rest : List Char) :
    decodeUnits (escapeAsciiChar char ++ rest) =
      (decodeUnits rest).map (charUnits char ++ ·) := by
  rw [escapeAsciiChar]
  split
  · next isAscii =>
      rw [decodeUnits_escapeChar, charUnits, if_pos (by omega)]
      rfl
  · exact decodeUnits_escapeUnits (charUnits_small char) rest

theorem decodeUnits_escapeAscii (text : List Char) :
    decodeUnits (escapeAscii text) = some (text.flatMap charUnits) := by
  induction text with
  | nil => rfl
  | cons char text induction =>
      rw [escapeAscii_cons, decodeUnits_escapeAsciiChar, induction]
      rfl

/-- The two surrogates of a character are joined again. -/
theorem joinUnits_charUnits (char : Char) (units : List Nat) :
    joinUnits (charUnits char ++ units) = char :: joinUnits units := by
  have bound := char_bound char
  rw [charUnits]
  split
  · have plain := not_surrogate char
    cases units with
    | nil => exact congrArg (· :: []) (unitChar_toNat char)
    | cons next units =>
        rw [List.singleton_append, joinUnits, if_neg (by omega), unitChar_toNat]
  · rw [List.cons_append, List.singleton_append, joinUnits, if_pos (by omega)]
    refine congrArg (· :: joinUnits units) 
      (Eq.trans (congrArg _ ?_) (Char.ofNat_toNat char))
    omega

theorem joinUnits_flatMap (text : List Char) :
    joinUnits (text.flatMap charUnits) = text := by
  induction text with
  | nil => rfl
  | cons char text induction =>
      rw [List.flatMap_cons, joinUnits_charUnits, induction]

theorem scanBody_escapeUnit (unit : Nat) (rest : List Char) :
    scanBody (escapeUnit unit ++ rest) =
      (scanBody rest).map fun scanned =>
        (escapeUnit unit ++ scanned.1, scanned.2) := by
  have plain (value : Nat) := hexDigit_plain value
  show scanBody ('\\' :: 'u' :: _ :: _ :: _ :: _ :: rest) = _
  rw [scanBody_backslash, scanBody_cons (plain _).1 (plain _).2,
    scanBody_cons (plain _).1 (plain _).2, scanBody_cons (plain _).1 (plain _).2,
    scanBody_cons (plain _).1 (plain _).2]
  cases scanBody rest <;> rfl

theorem scanBody_escapeUnits (units : List Nat) (rest : List Char) :
    scanBody (units.flatMap escapeUnit ++ rest) =
      (scanBody rest).map fun scanned =>
        (units.flatMap escapeUnit ++ scanned.1, scanned.2) := by
  induction units with
  | nil => simp
  | cons unit units induction =>
      rw [List.flatMap_cons, List.append_assoc, scanBody_escapeUnit, induction,
        Option.map_map]
      simp only [Function.comp_def, List.append_assoc]

theorem scanBody_escapeAscii (text rest : List Char) :
    scanBody (escapeAscii text ++ '"' :: rest) = some (escapeAscii text, rest) := by
  induction text with
  | nil => rfl
  | cons char text induction =>
      rw [escapeAscii_cons, List.append_assoc, escapeAsciiChar]
      split
      · rw [scanBody_escapeChar, induction]
        rfl
      · rw [scanBody_escapeUnits, induction]
        rfl

theorem stringReads_dumpAsciiString (value : String) :
    StringReads (dumpAsciiString value) value := by
  refine ⟨escapeAscii value.toList ++ ['"'], rfl, fun rest => ?_⟩
  rw [List.append_assoc, List.singleton_append, scanString, scanBody_escapeAscii]
  show (decodeUnits (escapeAscii value.toList)).bind _ = _
  rw [decodeUnits_escapeAscii]
  show some (String.ofList (joinUnits _), rest) = _
  rw [joinUnits_flatMap, String.ofList_toList]

/-! ## Items apart -/

/-- Only white space. -/
def Blank (gap : List Char) : Prop := ∀ char ∈ gap, isWhitespace char = true

section Apart

variable {gap last text : List Char} {texts : List (List Char)}

theorem Blank.skip (blank : Blank gap) (text : List Char) :
    skipWhitespace (gap ++ text) = skipWhitespace text :=
  List.dropWhile_append_of_pos blank

/-- Neither white space nor what ends an item belongs to a number. -/
theorem Blank.stops (blank : Blank gap) {char : Char}
    (ends : isNumberChar char = false) (rest : List Char) :
    Stops (gap ++ char :: rest) := by
  cases gap with
  | nil =>
      rintro first ⟨⟩
      exact ends
  | cons first gap =>
      rintro _ ⟨⟩
      exact whitespace_stops (blank first List.mem_cons_self)

/-- Texts behind another one, with a comma and a gap before each. -/
def moreApart (gap : List Char) (texts : List (List Char)) : List Char :=
  texts.flatMap fun text => ',' :: (gap ++ text)

theorem moreApart_nil : moreApart gap [] = [] := rfl

theorem moreApart_cons (text : List Char) (texts : List (List Char)) :
    moreApart gap (text :: texts) = ',' :: (gap ++ (text ++ moreApart gap texts)) := by
  rw [moreApart, List.flatMap_cons, List.cons_append, List.append_assoc]
  rfl

theorem stops_moreApart (blank : Blank last) {ending : Char}
    (ends : isNumberChar ending = false) (rest : List Char) :
    Stops (moreApart gap texts ++ (last ++ ending :: rest)) := by
  cases texts with
  | nil => exact blank.stops ends rest
  | cons text texts =>
      rw [moreApart_cons]
      rintro _ ⟨⟩
      decide

theorem scanItems_text {item : Json} (itemReads : ReadsAs text item) {fuel : Nat}
    (enough : 2 * text.length + 1 ≤ fuel) {rest : List Char} (stops : Stops rest) :
    scanItems (fuel + 1) (text ++ rest) =
      match skipWhitespace rest with
      | ']' :: rest => some ([item], rest)
      | ',' :: rest =>
          (scanItems fuel (skipWhitespace rest)).bind fun scanned =>
            some (item :: scanned.1, scanned.2)
      | _ => none := by
  rw [scanItems, itemReads fuel _ enough stops]
  rfl

/-- Items with gaps between them are read one by one. -/
theorem scanItems_apart (gapBlank : Blank gap) (lastBlank : Blank last) {item : Json}
    {items : List Json} (itemReads : ReadsAs text item)
    (reads : List.Forall₂ ReadsAs texts items) {fuel : Nat} (rest : List Char)
    (enough : 2 * (text ++ moreApart gap texts).length + 2 ≤ fuel) :
    scanItems fuel (text ++ (moreApart gap texts ++ (last ++ ']' :: rest))) =
      some (item :: items, rest) := by
  induction reads generalizing text item fuel with
  | nil =>
      cases fuel with
      | zero => omega
      | succ fuel =>
          rw [List.length_append] at enough
          rw [scanItems_text itemReads (by omega)
            (stops_moreApart lastBlank (by decide) rest), moreApart_nil,
            List.nil_append, lastBlank.skip]
          rfl
  | @cons next nextItem texts items nextReads reads induction =>
      cases fuel with
      | zero => omega
      | succ fuel =>
          rw [moreApart_cons] at enough
          simp only [List.length_append, List.length_cons] at enough
          have others :
              scanItems fuel
                  (next ++ (moreApart gap texts ++ (last ++ ']' :: rest))) =
                some (nextItem :: items, rest) := by
            apply induction nextReads
            rw [List.length_append]
            omega
          rw [scanItems_text itemReads (by omega)
            (stops_moreApart lastBlank (by decide) rest), moreApart_cons,
            List.cons_append]
          show (scanItems fuel (skipWhitespace
            ((gap ++ (next ++ moreApart gap texts)) ++
              (last ++ ']' :: rest)))).bind _ = _
          rw [List.append_assoc, List.append_assoc, gapBlank.skip,
            (nextReads.skip _).1, others]
          rfl

/-- Fields with gaps between them are read one by one. -/
theorem scanFields_apart (gapBlank : Blank gap) (lastBlank : Blank last)
    {field : String × Json} {fields : List (String × Json)}
    (fieldReads : FieldReads text field) (reads : List.Forall₂ FieldReads texts fields)
    {fuel : Nat} (rest : List Char)
    (enough : 2 * (text ++ moreApart gap texts).length + 2 ≤ fuel) :
    scanFields fuel (text ++ (moreApart gap texts ++ (last ++ '}' :: rest))) =
      some (field :: fields, rest) := by
  induction reads generalizing text field fuel with
  | nil =>
      cases fuel with
      | zero => omega
      | succ fuel =>
          rw [List.length_append] at enough
          rw [scanFields_text fieldReads (by omega)
            (stops_moreApart lastBlank (by decide) rest), moreApart_nil,
            List.nil_append, lastBlank.skip]
          rfl
  | @cons next nextField texts fields nextReads reads induction =>
      cases fuel with
      | zero => omega
      | succ fuel =>
          rw [moreApart_cons] at enough
          simp only [List.length_append, List.length_cons] at enough
          have others :
              scanFields fuel
                  (next ++ (moreApart gap texts ++ (last ++ '}' :: rest))) =
                some (nextField :: fields, rest) := by
            apply induction nextReads
            rw [List.length_append]
            omega
          rw [scanFields_text fieldReads (by omega)
            (stops_moreApart lastBlank (by decide) rest), moreApart_cons,
            List.cons_append]
          show (scanFields fuel (skipWhitespace
            ((gap ++ (next ++ moreApart gap texts)) ++
              (last ++ '}' :: rest)))).bind _ = _
          rw [List.append_assoc, List.append_assoc, gapBlank.skip, nextReads.skip,
            others]
          rfl

/-- Texts with a comma and a gap between them, and a gap around them. -/
def apart (gap last : List Char) : List (List Char) → List Char
  | [] => []
  | text :: texts => gap ++ (text ++ (moreApart gap texts ++ last))

theorem readsAs_arr_apart (gapBlank : Blank gap) (lastBlank : Blank last)
    {items : List Json} (reads : List.Forall₂ ReadsAs texts items) :
    ReadsAs ('[' :: (apart gap last texts ++ [']'])) (.arr items) := by
  intro fuel rest enough _
  cases fuel with
  | zero => omega
  | succ fuel =>
      cases reads with
      | nil => rfl
      | @cons text item texts items itemReads reads =>
          rw [apart] at enough ⊢
          simp only [List.length_append, List.length_cons] at enough
          have scanned : scanItems fuel _ = _ :=
            scanItems_apart gapBlank lastBlank itemReads reads rest
              (by rw [List.length_append]; omega)
          obtain ⟨skipped, notEnd⟩ :=
            itemReads.skip (moreApart gap texts ++ (last ++ ']' :: rest))
          simp only [List.cons_append, List.append_assoc, List.nil_append]
          rw [scanOnce, if_neg (by decide), if_neg (by decide), if_pos rfl,
            gapBlank.skip, skipped]
          split
          · next same => exact absurd same (notEnd _)
          · rw [scanned]
            rfl

theorem readsAs_obj_apart (gapBlank : Blank gap) (lastBlank : Blank last)
    {fields : List (String × Json)} (distinct : (fields.map Prod.fst).Nodup)
    (reads : List.Forall₂ FieldReads texts fields) :
    ReadsAs ('{' :: (apart gap last texts ++ ['}'])) (.obj fields) := by
  intro fuel rest enough _
  cases fuel with
  | zero => omega
  | succ fuel =>
      cases reads with
      | nil => rfl
      | @cons text field texts fields fieldReads reads =>
          rw [apart] at enough ⊢
          simp only [List.length_append, List.length_cons] at enough
          have scanned : scanFields fuel _ = _ :=
            scanFields_apart gapBlank lastBlank fieldReads reads rest
              (by rw [List.length_append]; omega)
          have skipped :=
            fieldReads.skip (moreApart gap texts ++ (last ++ '}' :: rest))
          simp only [List.cons_append, List.append_assoc, List.nil_append]
          rw [scanOnce, if_neg (by decide), if_pos rfl, gapBlank.skip, skipped]
          obtain ⟨name, value, rfl, ⟨body, rfl, -⟩, -⟩ := fieldReads
          show (scanFields fuel (('"' :: body ++ ':' :: ' ' :: value) ++
            (moreApart gap texts ++ (last ++ '}' :: rest)))).map _ = _
          rw [scanned, Option.map_some, dictOf_eq distinct]

end Apart

/-! ## Values -/

/-- A new line at a level. -/
def newLine (width level : Nat) : List Char :=
  '\n' :: List.replicate (width * level) ' '

theorem blank_newLine (width level : Nat) : Blank (newLine width level) := by
  intro char member
  rcases List.mem_cons.mp member with rfl | member
  · rfl
  · rw [List.eq_of_mem_replicate member]
    rfl

mutual

/-- `json.dumps(value, indent=width)`, at a level. -/
def dumpsAt (width level : Nat) : Json → List Char
  | .null => dumps .null
  | .bool value => dumps (.bool value)
  | .int value => dumps (.int value)
  | .float text => dumps (.float text)
  | .str value => dumpAsciiString value
  | .arr items =>
      '[' :: (apart (newLine width (level + 1)) (newLine width level)
        (itemsAt width (level + 1) items) ++ [']'])
  | .obj fields =>
      '{' :: (apart (newLine width (level + 1)) (newLine width level)
        (fieldsAt width (level + 1) fields) ++ ['}'])

def itemsAt (width level : Nat) : List Json → List (List Char)
  | [] => []
  | item :: items => dumpsAt width level item :: itemsAt width level items

def fieldsAt (width level : Nat) : List (String × Json) → List (List Char)
  | [] => []
  | (name, value) :: fields =>
      (dumpAsciiString name ++ ':' :: ' ' :: dumpsAt width level value) ::
        fieldsAt width level fields

end

/-- `json.dumps(value, indent=width)` -/
def dumpsIndented (width : Nat) (value : Json) : List Char := dumpsAt width 0 value

section Indented

variable {width : Nat}

mutual

/-- What is written at a level is read as the value. -/
theorem readsAs_dumpsAt (level : Nat) :
    ∀ value : Json, WellFormed value → ReadsAs (dumpsAt width level value) value
  | .null, _ => readsAs_scalar rfl
  | .bool true, _ => readsAs_scalar rfl
  | .bool false, _ => readsAs_scalar rfl
  | .int value, _ => by
      apply readsAs_scalar
      apply scanOnce_scalar
      rw [dumpsAt, dumps, scanScalar, scanNumber_dumpInt]
  | .float text, wellFormed => by
      apply readsAs_scalar
      apply scanOnce_scalar
      rw [dumpsAt, dumps]
      rwa [WellFormed] at wellFormed
  | .str value, _ => readsAs_str (stringReads_dumpAsciiString value)
  | .arr items, wellFormed => by
      rw [WellFormed] at wellFormed
      exact readsAs_arr_apart (blank_newLine _ _) (blank_newLine _ _)
        (readsAs_itemsAt (level + 1) items wellFormed)
  | .obj fields, wellFormed => by
      rw [WellFormed] at wellFormed
      exact readsAs_obj_apart (blank_newLine _ _) (blank_newLine _ _) wellFormed.1
        (fieldReads_fieldsAt (level + 1) fields wellFormed.2)

theorem readsAs_itemsAt (level : Nat) :
    ∀ items : List Json, WellFormedItems items →
      List.Forall₂ ReadsAs (itemsAt width level items) items
  | [], _ => .nil
  | item :: items, wellFormed => by
      rw [WellFormedItems] at wellFormed
      exact .cons (readsAs_dumpsAt level item wellFormed.1)
        (readsAs_itemsAt level items wellFormed.2)

theorem fieldReads_fieldsAt (level : Nat) :
    ∀ fields : List (String × Json), WellFormedFields fields →
      List.Forall₂ FieldReads (fieldsAt width level fields) fields
  | [], _ => .nil
  | (name, value) :: fields, wellFormed => by
      rw [WellFormedFields] at wellFormed
      exact .cons
        ⟨_, _, rfl, stringReads_dumpAsciiString name,
          readsAs_dumpsAt level value wellFormed.1⟩
        (fieldReads_fieldsAt level fields wellFormed.2)

end

/-- What is written with indentation is loaded again. -/
theorem loads_dumpsIndented {value : Json} (wellFormed : WellFormed value) :
    loads (dumpsIndented width value) = some value := by
  have reads : ReadsAs (dumpsIndented width value) value :=
    readsAs_dumpsAt 0 value wellFormed
  obtain ⟨skipped, _⟩ := reads.skip []
  rw [List.append_nil] at skipped
  have scanned := reads _ [] (Nat.le_refl _) (by rintro _ ⟨⟩)
  rw [List.append_nil] at scanned
  rw [loads, skipped, scanned]
  rfl

end Indented

end JsonText
