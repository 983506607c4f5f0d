import AgentSchedBench.Trace.Files

/-!
# Trace files round trip

The readers that write a trace file anew read the records that the hook has
written, and so do the others, if and only if no string holds a character
that ends a line without being escaped: the next line, the line separator or
the paragraph separator.
-/

namespace AgentSchedBench.Trace

open JsonText TextLines
open Agent (isSpace)

/-! ## Separators -/

/-- A character that ends a line and is written as it is. -/
def isSeparator (char : Char) : Bool :=
  [0x85, 0x2028, 0x2029].contains char.toNat

/-- No separator is in the name or in a string of the value. -/
def CleanField (field : String × Json) : Prop :=
  ∀ char ∈ field.1.toList ++ stringChars field.2, isSeparator char = false

instance (field : String × Json) : Decidable (CleanField field) :=
  List.decidableBAll _ _

/-- No separator is in a name or a string of the record. -/
def Clean (record : Record) : Prop := ∀ field ∈ record, CleanField field

instance (record : Record) : Decidable (Clean record) :=
  inferInstanceAs (Decidable (∀ field ∈ record, CleanField field))

theorem mem_fieldChars {fields : Record} {char : Char} :
    char ∈ fieldChars fields ↔
      ∃ field ∈ fields, char ∈ field.1.toList ++ stringChars field.2 := by
  induction fields with
  | nil => simp [fieldChars]
  | cons field fields induction =>
      obtain ⟨name, value⟩ := field
      rw [fieldChars, ← List.append_assoc, List.mem_append, induction,
        List.exists_mem_cons_iff]

theorem clean_iff {record : Record} :
    Clean record ↔ ∀ char ∈ fieldChars record, isSeparator char = false := by
  constructor
  · intro clean char member
    obtain ⟨field, isField, inField⟩ := mem_fieldChars.mp member
    exact clean field isField char inField
  · intro clean field isField char inField
    exact clean char (mem_fieldChars.mpr ⟨field, isField, inField⟩)

theorem cleanField_obj {name : String} {record : Record}
    (nameClean : ∀ char ∈ name.toList, isSeparator char = false) :
    CleanField (name, .obj record) ↔ Clean record := by
  rw [clean_iff, CleanField, stringChars]
  constructor
  · intro clean char member
    exact clean char (List.mem_append_right _ member)
  · intro clean char member
    rcases List.mem_append.mp member with inName | inRecord
    · exact nameClean char inName
    · exact clean char inRecord

/-- A line ends within a record at a separator. -/
theorem boundary_mem_dumps {record : Record}
    (wellFormed : WellFormed (.obj record)) {char : Char}
    (isBoundary : isLineBoundary char = true) :
    char ∈ dumps (.obj record) ↔
      char ∈ fieldChars record ∧ isSeparator char = true := by
  have bounds :
      isPrintable char = false ∧
        (32 ≤ char.toNat ↔ isSeparator char = true) := by
    simp only [isLineBoundary, isSeparator, isPrintable, Bool.or_eq_true,
      Bool.and_eq_true, decide_eq_true_eq, List.contains_cons,
      List.contains_nil, Bool.or_false, beq_iff_eq, Bool.and_eq_false_iff,
      decide_eq_false_iff_not] at isBoundary ⊢
    omega
  have shows := shows_dumps _ wellFormed char bounds.1
  rw [shows, stringChars, bounds.2]

/-- The line of a clean record is one line. -/
theorem noBoundary_dumps {record : Record}
    (wellFormed : WellFormed (.obj record)) (clean : Clean record) :
    ∀ char ∈ dumps (.obj record), isLineBoundary char = false := by
  intro char member
  by_contra isBoundary
  rw [Bool.not_eq_false] at isBoundary
  obtain ⟨inFields, isSeparator⟩ :=
    (boundary_mem_dumps wellFormed isBoundary).mp member
  rw [clean_iff.mp clean char inFields] at isSeparator
  cases isSeparator

/-! ## Reading lines -/

theorem dumps_obj (record : Record) :
    dumps (.obj record) = '{' :: (dumpFields record ++ ['}']) := by
  rw [dumps]

/-- A record is neither blank nor has blanks around it. -/
theorem isBlankLine_dumps (record : Record) :
    isBlankLine (dumps (.obj record)) = false := by
  rw [dumps_obj]
  rfl

theorem strip_dumps (record : Record) :
    strip (dumps (.obj record)) = dumps (.obj record) := by
  rw [dumps_obj]
  apply strip_eq_self
  · rintro char ⟨⟩
    decide
  · rw [← List.cons_append, List.getLast?_append, List.getLast?_singleton]
    rintro char ⟨⟩
    decide

theorem parseRecord_dumps {record : Record}
    (wellFormed : WellFormed (.obj record)) :
    parseRecord (dumps (.obj record)) = .ok record := by
  rw [parseRecord, loads_dumps wellFormed]

/-- The lines of clean records are those that were written. -/
theorem splitLines_traceText {records : List Record}
    (wellFormed : ∀ record ∈ records, WellFormed (.obj record))
    (clean : ∀ record ∈ records, Clean record) :
    splitLines (traceText records) =
      records.map fun record => dumps (.obj record) := by
  induction records with
  | nil => rfl
  | cons record records induction =>
      rw [List.forall_mem_cons] at wellFormed clean
      rw [traceText, List.flatMap_cons, recordLine, List.append_assoc,
        List.singleton_append,
        splitLines_append (noBoundary_dumps wellFormed.1 clean.1)
          (by decide) (by decide),
        ← traceText, induction wellFormed.2 clean.2, List.map_cons]

theorem someLines_dumps (records : List Record) :
    someLines (records.map fun record => dumps (.obj record)) =
      records.map fun record => dumps (.obj record) := by
  rw [someLines, List.filter_eq_self]
  intro line member
  obtain ⟨record, _, rfl⟩ := List.mem_map.mp member
  rw [isBlankLine_dumps]
  rfl

theorem strictRecords_dumps {records : List Record}
    (wellFormed : ∀ record ∈ records, WellFormed (.obj record)) :
    strictRecords (records.map fun record => dumps (.obj record)) =
      .ok records := by
  induction records with
  | nil => rfl
  | cons record records induction =>
      rw [List.forall_mem_cons] at wellFormed
      have rest := induction wellFormed.2
      rw [strictRecords] at rest
      rw [List.map_cons, strictRecords, List.mapM_cons,
        parseRecord_dumps wellFormed.1, rest]
      rfl

theorem lenientRecords_dumps {records : List Record}
    (wellFormed : ∀ record ∈ records, WellFormed (.obj record)) :
    lenientRecords (records.map fun record => dumps (.obj record)) =
      .ok records := by
  induction records with
  | nil => rfl
  | cons record records induction =>
      rw [List.forall_mem_cons] at wellFormed
      rw [List.map_cons, lenientRecords, parseRecord_dumps wellFormed.1,
        induction wellFormed.2]
      rfl

/-- A record with a separator is cut before its end. -/
theorem dumps_unclean {record : Record}
    (wellFormed : WellFormed (.obj record)) (unclean : ¬ Clean record) :
    ∃ front boundary back,
      dumps (.obj record) = '{' :: front ++ boundary :: back ∧
        (∀ char ∈ '{' :: front, isLineBoundary char = false) ∧
          isLineBoundary boundary = true ∧ boundary ≠ '\r' := by
  rw [clean_iff] at unclean
  push Not at unclean
  obtain ⟨char, inFields, isSeparator⟩ := unclean
  rw [Bool.ne_false_iff] at isSeparator
  have charBoundary : isLineBoundary char = true := by
    rw [isLineBoundary, ← Trace.isSeparator, isSeparator, Bool.or_true]
  have member :=
    (boundary_mem_dumps wellFormed charBoundary).mpr
      ⟨inFields, isSeparator⟩
  cases found : (dumps (.obj record)).find? isLineBoundary with
  | none =>
      exact absurd charBoundary (List.find?_eq_none.mp found char member)
  | some boundary =>
      obtain ⟨isBoundary, front, back, isText, before⟩ :=
        List.find?_eq_some_iff_append.mp found
      have boundaryMember : boundary ∈ dumps (.obj record) := by
        rw [isText]
        exact List.mem_append_right _ List.mem_cons_self
      have separates :=
        ((boundary_mem_dumps wellFormed isBoundary).mp boundaryMember).2
      cases front with
      | nil =>
          rw [dumps_obj] at isText
          cases isText
          exact absurd isBoundary (by decide)
      | cons first front =>
          have isBrace : first = '{' := by
            rw [dumps_obj] at isText
            exact (List.cons.inj isText).1.symm
          subst isBrace
          refine ⟨front, boundary, back, isText, ?_, isBoundary, ?_⟩
          · intro char member
            simpa using before char member
          · rintro rfl
            exact absurd separates (by decide)

/-- The first line of a text that has a separator is no record. -/
theorem strictRecords_separator {records : List Record}
    (wellFormed : ∀ record ∈ records, WellFormed (.obj record))
    (unclean : ¬ ∀ record ∈ records, Clean record) :
    strictRecords (someLines (splitLines (traceText records))) =
      .error .decode := by
  induction records with
  | nil => exact absurd nofun unclean
  | cons record records induction =>
      rw [List.forall_mem_cons] at wellFormed unclean
      rw [traceText, List.flatMap_cons, recordLine, List.append_assoc,
        List.singleton_append]
      by_cases clean : Clean record
      · have rest := induction wellFormed.2 fun others =>
          unclean ⟨clean, others⟩
        rw [splitLines_append (noBoundary_dumps wellFormed.1 clean)
            (by decide) (by decide), someLines,
          List.filter_cons_of_pos (by rw [isBlankLine_dumps]; rfl),
          ← someLines, ← traceText, strictRecords, List.mapM_cons,
          parseRecord_dumps wellFormed.1, ← strictRecords, rest]
        rfl
      · obtain ⟨front, boundary, back, isText, before, isBoundary, notReturn⟩ :=
          dumps_unclean wellFormed.1 clean
        have cut : loads ('{' :: front) = none :=
          not_loads_prefix wellFormed.1 isText (by nofun)
        have noRecord : parseRecord ('{' :: front) = .error .decode := by
          rw [parseRecord, cut]
        have lines := splitLines_append before isBoundary notReturn
          (back ++ '\n' :: records.flatMap recordLine)
        have written :
            dumps (.obj record) ++ '\n' :: records.flatMap recordLine =
              '{' :: front ++ boundary ::
                (back ++ '\n' :: records.flatMap recordLine) := by
          rw [isText, List.append_assoc]
          rfl
        rw [written, lines, someLines, List.filter_cons_of_pos (by rfl),
          strictRecords, List.mapM_cons, noRecord]
        rfl

theorem hasType_iff {record : Record} {name : String} :
    record.hasType name = true ↔
      fieldOf record "type" = some (.str name) := by
  rw [Record.hasType, Record.fieldIs]
  split
  · next isText => simp [isText]
  · next noText =>
      constructor
      · nofun
      · intro isText
        exact absurd isText (noText _)

/-! ## Trace files -/

/--
The records of a trace file.  The hook writes the metadata first, with a run
configuration, and only then.
-/
structure TraceFile where
  header : Record
  runConfig : Record
  body : List Record
  headerWellFormed : WellFormed (.obj header)
  bodyWellFormed : ∀ record ∈ body, WellFormed (.obj record)
  isMetadata : header.hasType "trace_metadata" = true
  hasRunConfig : fieldOf header "run_config" = some (.obj runConfig)
  noMetadata : ∀ record ∈ body, record.hasType "trace_metadata" = false
  actionData :
    ∀ record ∈ body, isToolExec record = true →
      ∃ data, fieldOf record "data" = some (.obj data)

namespace TraceFile

def records (trace : TraceFile) : List Record := trace.header :: trace.body

def text (trace : TraceFile) : Text := traceText trace.records

end TraceFile

/-! ## What is set -/

theorem forall_optional {name : String} {value : Option String}
    {holds : String × Json → Prop} (each : ∀ text, holds (name, .str text)) :
    ∀ field ∈ optional name value, holds field := by
  intro field member
  obtain ⟨text, _, rfl⟩ := List.mem_map.mp member
  exact each text

theorem wellFormed_str (text : String) : WellFormed (.str text) := by
  simp [WellFormed]

theorem wellFormed_int (value : Int) : WellFormed (.int value) := by
  simp [WellFormed]

theorem wellFormed_get {record : Record}
    (wellFormed : WellFormed (.obj record)) (name : String) :
    WellFormed (record.get name) := by
  rw [Record.get]
  cases found : fieldOf record name with
  | none => simp [WellFormed]
  | some value =>
      exact (wellFormed_obj.mp wellFormed).2 _ (mem_of_fieldOf found)

/-- What is set is well formed, and what it says of the type is so. -/
def Settable (field : String × Json) : Prop :=
  WellFormed field.2 ∧ field.1 ≠ "run_config" ∧
    (field.1 = "type" → field.2 = .str "trace_metadata")

theorem settable_defaults (settings : AttemptSettings) :
    ∀ field ∈ settings.defaults, Settable field := by
  simp only [AttemptSettings.defaults, List.forall_mem_append,
    List.forall_mem_cons, List.not_mem_nil, false_implies, implies_true,
    and_true]
  refine ⟨⟨?_, ?_⟩, ?_⟩
  · simp [Settable, WellFormed]
  · exact forall_optional fun text => by simp [Settable, WellFormed]
  · simp [Settable, WellFormed]

theorem defaults_new (settings : AttemptSettings) :
    settings.defaults.names.Nodup ∧
      ∀ field ∈ settings.defaults,
        fieldOf AttemptSettings.base field.1 = none := by
  constructor
  · rw [AttemptSettings.defaults, optional]
    cases settings.harnessSplit <;> simp [Record.names]
  · simp only [AttemptSettings.defaults, List.forall_mem_append]
    refine ⟨⟨?_, forall_optional fun _ => rfl⟩, ?_⟩
    · simp [AttemptSettings.base, fieldOf]
    · simp [AttemptSettings.base, fieldOf]

theorem settable_values (settings : AttemptSettings) :
    ∀ field ∈ settings.values, Settable field := by
  simp only [AttemptSettings.values, List.forall_mem_append]
  refine ⟨⟨⟨?_, ?_⟩, ?_⟩, ?_⟩
  · exact forall_optional fun text => by simp [Settable, WellFormed]
  · exact forall_optional fun text => by simp [Settable, WellFormed]
  · split
    · nofun
    · simpa [Settable] using settings.wellFormed.1
  · simp [Settable, WellFormed]

theorem settable_terminalBench (settings : TerminalBenchSettings) :
    ∀ field ∈ settings.values, Settable field := by
  have ofTask := wellFormed_get settings.wellFormed.1
  simp [TerminalBenchSettings.values, Settable, WellFormed, ofTask]

/-! ## Writing anew -/

/-- A reader that writes the file anew, with its settings. -/
inductive Rewrite where
  | normalize (settings : AttemptSettings)
  | augment (settings : TerminalBenchSettings)
  | stamp (values : Record) (wellFormed : WellFormed (.obj values))

namespace Rewrite

def apply : Rewrite → Text → Except ReadError Text
  | normalize settings, text => normalizeOpenclawTrace settings text
  | augment settings, text => augmentTraceMetadata settings text
  | stamp values _, text => stampTraceRunConfig values text

/-- The fields that a header has before those of the trace. -/
def base : Rewrite → Record
  | normalize _ => AttemptSettings.base
  | _ => []

/-- The fields of the header that are set. -/
def fields (header : Record) : Rewrite → Record
  | normalize settings =>
      (settings.defaults.filter fun field =>
        (fieldOf header field.1).isNone) ++ settings.values
  | augment settings => settings.values
  | stamp _ _ => []

/-- The fields of the run configuration that are set. -/
def runConfig : Rewrite → Record
  | normalize settings => settings.runConfig
  | augment settings => settings.runConfig
  | stamp values _ => values

theorem settable_fields (header : Record) (rewrite : Rewrite) :
    ∀ field ∈ rewrite.fields header, Settable field := by
  cases rewrite with
  | normalize settings =>
      rw [fields, List.forall_mem_append]
      refine ⟨fun field member => ?_, settable_values settings⟩
      exact settable_defaults settings field (List.mem_of_mem_filter member)
  | augment settings => exact settable_terminalBench settings
  | stamp values _ => nofun

theorem wellFormed_runConfig (rewrite : Rewrite) :
    ∀ field ∈ rewrite.runConfig, WellFormed field.2 := by
  cases rewrite with
  | normalize settings =>
      obtain ⟨_, overrides, generation, env⟩ := settings.wellFormed
      simp only [runConfig, AttemptSettings.runConfig,
        List.forall_mem_append]
      refine ⟨⟨⟨?_, ?_⟩, ?_⟩, ?_⟩
      · exact forall_optional wellFormed_str
      · exact (wellFormed_obj.mp overrides).2
      · split
        · nofun
        · simpa using generation
      · intro field member
        obtain ⟨names, isEnv, rfl⟩ := List.mem_map.mp member
        rw [wellFormed_obj, List.map_map]
        refine ⟨env names (by simpa using isEnv), ?_⟩
        intro field member
        obtain ⟨_, _, rfl⟩ := List.mem_map.mp member
        exact wellFormed_str _
  | augment settings =>
      obtain ⟨_, generation, grace, agent, llm⟩ := settings.wellFormed
      simp only [runConfig, TerminalBenchSettings.runConfig,
        List.forall_mem_append]
      refine ⟨⟨⟨⟨?_, ?_⟩, ?_⟩, ?_⟩, ?_⟩
      · exact forall_optional wellFormed_str
      · intro field member
        obtain ⟨timeout, isTimeout, rfl⟩ := List.mem_map.mp member
        exact agent timeout (by simpa using isTimeout)
      · intro field member
        obtain ⟨timeout, isTimeout, rfl⟩ := List.mem_map.mp member
        exact llm timeout (by simpa using isTimeout)
      · simpa using grace
      · split
        · nofun
        · simpa using generation
  | stamp values wellFormed => exact (wellFormed_obj.mp wellFormed).2

theorem base_fields (rewrite : Rewrite) :
    rewrite.base.names.Nodup ∧
      (∀ field ∈ rewrite.base,
        WellFormed field.2 ∧ CleanField field) := by
  cases rewrite with
  | normalize settings =>
      have distinct : AttemptSettings.base.names.Nodup := by decide
      have clean : ∀ field ∈ AttemptSettings.base, CleanField field := by
        decide
      have wellFormed :
          ∀ field ∈ AttemptSettings.base, WellFormed field.2 := by
        simp [AttemptSettings.base, WellFormed, WellFormedFields]
      exact ⟨distinct, fun field member =>
        ⟨wellFormed field member, clean field member⟩⟩
  | augment _ => exact ⟨List.nodup_nil, nofun⟩
  | stamp _ _ => exact ⟨List.nodup_nil, nofun⟩

/-- The header that the reader writes. -/
def header (trace : TraceFile) (rewrite : Rewrite) : Record :=
  ((rewrite.base.update trace.header).update
    (rewrite.fields trace.header)).withField "run_config"
      (.obj (trace.runConfig.update rewrite.runConfig))

section Header

variable (trace : TraceFile) (rewrite : Rewrite)

theorem fieldOf_base {name : String} {value : Json}
    (found : fieldOf trace.header name = some value) :
    fieldOf (rewrite.base.update trace.header) name = some value := by
  have distinct := (wellFormed_obj.mp trace.headerWellFormed).1
  rw [Record.fieldOf_update_distinct distinct, found]
  rfl

theorem fieldOf_runConfig :
    fieldOf
        ((rewrite.base.update trace.header).update
          (rewrite.fields trace.header)) "run_config" =
      some (.obj trace.runConfig) := by
  rw [Record.fieldOf_update]
  · exact fieldOf_base trace rewrite trace.hasRunConfig
  · intro member
    obtain ⟨field, isField, isName⟩ := List.mem_map.mp member
    exact (settable_fields trace.header rewrite field isField).2.1 isName

theorem isMetadata_header :
    (rewrite.header trace).hasType "trace_metadata" = true := by
  rw [hasType_iff, header, Record.fieldOf_withField, if_neg (by decide)]
  apply Record.fieldOf_update_same
  · exact fieldOf_base trace rewrite (hasType_iff.mp trace.isMetadata)
  · intro field member
    exact (settable_fields trace.header rewrite field member).2.2

theorem wellFormed_header : WellFormed (.obj (rewrite.header trace)) := by
  obtain ⟨_, headerValues⟩ := wellFormed_obj.mp trace.headerWellFormed
  have runConfigWellFormed :=
    headerValues _ (mem_of_fieldOf trace.hasRunConfig)
  obtain ⟨runConfigDistinct, runConfigValues⟩ :=
    wellFormed_obj.mp runConfigWellFormed
  rw [wellFormed_obj, header]
  constructor
  · apply Record.nodup_withField
    apply Record.nodup_update
    exact Record.nodup_update (base_fields rewrite).1 _
  · intro field member
    rcases Record.mem_withField.mp member with rfl | ⟨old, _⟩
    · rw [wellFormed_obj]
      exact ⟨Record.nodup_update runConfigDistinct _,
        Record.forall_update runConfigValues (wellFormed_runConfig rewrite)⟩
    · have baseValues := Record.forall_update
        (fun field member => ((base_fields rewrite).2 field member).1)
        headerValues
      exact Record.forall_update baseValues
        (fun field member =>
          (settable_fields trace.header rewrite field member).1) field old

end Header

end Rewrite

/-- The records that the reader leaves in the file. -/
def TraceFile.rewrite (trace : TraceFile) (rewrite : Rewrite) : TraceFile where
  header := rewrite.header trace
  runConfig := trace.runConfig.update rewrite.runConfig
  body := trace.body
  headerWellFormed := rewrite.wellFormed_header trace
  bodyWellFormed := trace.bodyWellFormed
  isMetadata := rewrite.isMetadata_header trace
  hasRunConfig := by
    rw [Rewrite.header, Record.fieldOf_withField, if_pos rfl]
  noMetadata := trace.noMetadata
  actionData := trace.actionData

theorem TraceFile.rewrite_text (trace : TraceFile) (rewrite : Rewrite) :
    (trace.rewrite rewrite).text =
      recordLine (rewrite.header trace) ++ traceText trace.body := by
  rw [text, records, traceText, List.flatMap_cons, ← traceText]
  rfl

/-! ## What the readers write -/

section Readers

variable (trace : TraceFile)

/-- One setting of the run configuration after the other. -/
theorem foldlM_setRunConfig {merged runConfig fields : Record}
    (distinct : merged.names.Nodup)
    (found : fieldOf merged "run_config" = some (.obj runConfig)) :
    fields.foldlM setRunConfig merged =
      .ok (merged.withField "run_config"
        (.obj (runConfig.update fields))) := by
  induction fields generalizing merged runConfig with
  | nil => exact congrArg Except.ok (Record.withField_same distinct found).symm
  | cons field fields induction =>
      have set :
          setRunConfig merged field =
            .ok (merged.withField "run_config"
              (.obj (runConfig.withField field.1 field.2))) := by
        rw [setRunConfig, Record.get, found]
        rfl
      rw [List.foldlM_cons, set]
      show fields.foldlM setRunConfig _ = _
      rw [induction (Record.nodup_withField distinct _ _) (by
          rw [Record.fieldOf_withField, if_pos rfl]),
        Record.withField_withField]
      rfl

/-- The header that the collector writes. -/
theorem merged_header (settings : AttemptSettings) :
    settings.merged (some trace.header) =
      .ok (Rewrite.header trace (.normalize settings)) := by
  obtain ⟨distinct, new⟩ := defaults_new settings
  have headerDistinct := (wellFormed_obj.mp trace.headerWellFormed).1
  have missing :
      (settings.defaults.filter fun field =>
          (fieldOf (AttemptSettings.base.update trace.header)
            field.1).isNone) =
        settings.defaults.filter fun field =>
          (fieldOf trace.header field.1).isNone := by
    apply List.filter_congr
    intro field member
    rw [Record.fieldOf_update_distinct headerDistinct, new field member,
      Option.or_none]
  have runConfig := Rewrite.fieldOf_runConfig trace (.normalize settings)
  rw [Rewrite.base, Rewrite.fields, ← missing, Record.update_append,
    ← Record.foldl_setDefault _ distinct] at runConfig
  rw [Rewrite.header, Rewrite.base, Rewrite.fields, ← missing,
    Record.update_append, ← Record.foldl_setDefault _ distinct,
    Rewrite.runConfig]
  unfold AttemptSettings.merged
  rw [Option.getD_some]
  apply foldlM_setRunConfig _ runConfig
  rw [Record.foldl_setDefault _ distinct]
  exact Record.nodup_update
    (Record.nodup_update
      (Record.nodup_update (Rewrite.base_fields (.normalize settings)).1 _) _)
    _

theorem traceMetadata_header (settings : TerminalBenchSettings) :
    settings.traceMetadata (some trace.header) =
      .ok (Rewrite.header trace (.augment settings)) := by
  have written :
      (Rewrite.base (.augment settings)).update trace.header =
        trace.header :=
    dictOf_eq (wellFormed_obj.mp trace.headerWellFormed).1
  have runConfig := Rewrite.fieldOf_runConfig trace (.augment settings)
  rw [written, Rewrite.fields] at runConfig
  have isDict :
      dictOrEmpty .type
          ((trace.header.update settings.values).get "run_config") =
        .ok trace.runConfig := by
    rw [Record.get, runConfig, Option.getD_some, dictOrEmpty]
  rw [Rewrite.header, written, Rewrite.fields, Rewrite.runConfig]
  unfold TerminalBenchSettings.traceMetadata
  rw [Option.getD_some]
  generalize trace.header.update settings.values = merged at isDict ⊢
  simp only [isDict]
  rfl

/-- The lines of the records. -/
def TraceFile.lines : List Text :=
  trace.records.map fun record => dumps (.obj record)

theorem recordsWellFormed :
    ∀ record ∈ trace.records, WellFormed (.obj record) := by
  rw [TraceFile.records, List.forall_mem_cons]
  exact ⟨trace.headerWellFormed, trace.bodyWellFormed⟩

theorem splitHeader_lines :
    splitHeader trace.lines =
      .ok (some trace.header,
        trace.body.map fun record => dumps (.obj record)) := by
  have isMetadata := trace.isMetadata
  rw [TraceFile.lines, TraceFile.records, List.map_cons, splitHeader,
    isBlankLine_dumps, parseRecord_dumps trace.headerWellFormed]
  simp only [Bool.false_eq_true, if_false, isMetadata, if_true]

theorem normalize_lines (settings : AttemptSettings) {text : Text}
    (lines : splitLines text = trace.lines) :
    normalizeOpenclawTrace settings text =
      .ok (trace.rewrite (.normalize settings)).text := by
  have kept :
      (trace.body.filter fun record => !record.hasType "trace_metadata") =
        trace.body := by
    rw [List.filter_eq_self]
    intro record member
    rw [trace.noMetadata record member]
    rfl
  have body := lenientRecords_dumps trace.bodyWellFormed
  rw [normalizeOpenclawTrace, lines, splitHeader_lines]
  simp only [bind, Except.bind, merged_header, someLines_dumps, body, kept,
    TraceFile.rewrite_text]
  rfl

theorem augment_lines (settings : TerminalBenchSettings) {text : Text}
    (lines : splitLines text = trace.lines) :
    augmentTraceMetadata settings text =
      .ok (trace.rewrite (.augment settings)).text := by
  rw [augmentTraceMetadata, lines, splitHeader_lines]
  simp only [bind, Except.bind, traceMetadata_header, someLines_dumps,
    List.flatMap_map, TraceFile.rewrite_text]
  rfl

theorem stampLines_body (values : Record) {records : List Record}
    (wellFormed : ∀ record ∈ records, WellFormed (.obj record)) :
    stampLines values true
        (records.map fun record => dumps (.obj record)) =
      .ok (records.map fun record => dumps (.obj record)) := by
  induction records with
  | nil => rfl
  | cons record records induction =>
      rw [List.forall_mem_cons] at wellFormed
      rw [List.map_cons, stampLines, parseRecord_dumps wellFormed.1]
      simp only [bind, Except.bind, Bool.not_true, Bool.false_and,
        Bool.false_eq_true, if_false, induction wellFormed.2]
      rfl

theorem stamp_lines (values : Record)
    (wellFormed : WellFormed (.obj values)) {text : Text}
    (lines : splitLines text = trace.lines) :
    stampTraceRunConfig values text =
      .ok (trace.rewrite (.stamp values wellFormed)).text := by
  have own : Record.update [] trace.header = trace.header :=
    dictOf_eq (wellFormed_obj.mp trace.headerWellFormed).1
  have header :
      Rewrite.header trace (.stamp values wellFormed) =
        trace.header.withField "run_config"
          (.obj (trace.runConfig.update values)) := by
    have written :
        (Rewrite.base (.stamp values wellFormed)).update trace.header =
          trace.header := own
    rw [Rewrite.header, written, Rewrite.fields, Rewrite.runConfig]
    rfl
  have isDict :
      dictOrEmpty .type (trace.header.get "run_config") =
        .ok trace.runConfig := by
    rw [Record.get, trace.hasRunConfig, Option.getD_some, dictOrEmpty]
  have stamped :
      stampLines values false trace.lines =
        .ok (dumps (.obj (Rewrite.header trace (.stamp values wellFormed))) ::
          trace.body.map fun record => dumps (.obj record)) := by
    rw [TraceFile.lines, TraceFile.records, List.map_cons, stampLines,
      parseRecord_dumps trace.headerWellFormed, header]
    simp only [bind, Except.bind, Bool.not_false, Bool.true_and,
      trace.isMetadata, if_true, isDict,
      stampLines_body values trace.bodyWellFormed]
    rfl
  have all : someLines trace.lines = trace.lines :=
    someLines_dumps trace.records
  rw [stampTraceRunConfig, lines, all, stamped]
  simp only [bind, Except.bind, intercalate_lines, TraceFile.rewrite_text,
    List.flatMap_cons, List.flatMap_map]
  rfl

/-! ## Round trips -/

/-- Does every reader of the file recover the records? -/
structure Recovers (text : Text) (trace : TraceFile) : Prop where
  rewrites :
    ∀ rewrite : Rewrite, rewrite.apply text = .ok (trace.rewrite rewrite).text
  toolCalls :
    ∀ rendering, ∃ calls,
      toolCalls rendering trace.records = .ok calls ∧
        buildToolCallsFromTrace rendering text = .ok calls
  totals : traceSummaryTotals text = .ok (summaryTotals trace.records)

/-- The data of an action is a dictionary. -/
theorem toolCalls_ok (rendering : Rendering) :
    ∃ calls, toolCalls rendering trace.records = .ok calls := by
  have each :
      ∀ record ∈ trace.records.filter isToolExec,
        ∃ call, toolCall rendering record = .ok call := by
    intro record member
    obtain ⟨isRecord, isExec⟩ := List.mem_filter.mp member
    rcases List.mem_cons.mp isRecord with rfl | inBody
    · have isMetadata := hasType_iff.mp trace.isMetadata
      rw [isToolExec, Bool.and_eq_true, hasType_iff, isMetadata] at isExec
      simp at isExec
    · obtain ⟨data, isData⟩ := trace.actionData record inBody isExec
      rw [toolCall, Record.get, isData]
      exact ⟨_, rfl⟩
  rw [toolCalls]
  generalize trace.records.filter isToolExec = records at each
  induction records with
  | nil => exact ⟨[], rfl⟩
  | cons record records induction =>
      rw [List.forall_mem_cons] at each
      obtain ⟨call, isCall⟩ := each.1
      obtain ⟨calls, isCalls⟩ := induction each.2
      refine ⟨call :: calls, ?_⟩
      rw [List.mapM_cons, isCall, isCalls]
      rfl

/-- Every reader recovers clean records. -/
theorem recovers (clean : ∀ record ∈ trace.records, Clean record) :
    Recovers trace.text trace := by
  have wellFormed := recordsWellFormed trace
  have lines : splitLines trace.text = trace.lines :=
    splitLines_traceText wellFormed clean
  constructor
  · intro rewrite
    cases rewrite with
    | normalize settings => exact normalize_lines trace settings lines
    | augment settings => exact augment_lines trace settings lines
    | stamp values valuesWellFormed =>
        exact stamp_lines trace values valuesWellFormed lines
  · intro rendering
    obtain ⟨calls, isCalls⟩ := toolCalls_ok trace rendering
    have stripped : trace.lines.map strip = trace.lines := by
      rw [TraceFile.lines, List.map_map]
      exact List.map_congr_left fun record _ => strip_dumps record
    have nonempty :
        trace.lines.filter (fun line => !line.isEmpty) = trace.lines := by
      rw [List.filter_eq_self]
      intro line member
      obtain ⟨record, _, rfl⟩ := List.mem_map.mp member
      rw [dumps_obj]
      rfl
    have records : lenientRecords trace.lines = .ok trace.records :=
      lenientRecords_dumps wellFormed
    refine ⟨calls, isCalls, ?_⟩
    rw [buildToolCallsFromTrace, lines]
    simp only [stripped, nonempty, records]
    exact isCalls
  · rw [traceSummaryTotals, lines, TraceFile.lines, someLines_dumps,
      strictRecords_dumps wellFormed]
    rfl

/-- Some reader fails at a separator. -/
theorem recovers_iff :
    Recovers trace.text trace ↔
      ∀ record ∈ trace.records, Clean record := by
  refine ⟨fun recovered => ?_, recovers trace⟩
  by_contra unclean
  have failed := strictRecords_separator (recordsWellFormed trace) unclean
  have totals := recovered.totals
  rw [traceSummaryTotals, TraceFile.text, failed] at totals
  cases totals

/-! ## Clean settings -/

/-- Fields of other names are clean. -/
def CleanBut (names : List String) (record : Record) : Prop :=
  ∀ field ∈ record, field.1 ∈ names ∨ CleanField field

/-- A field that is set is clean, or is set again. -/
def WritesClean : Record → Prop
  | [] => True
  | field :: fields =>
      (field.1 ∈ Record.names fields ∨ CleanField field) ∧
        WritesClean fields

theorem cleanBut_withField {names : List String} {record : Record}
    {name : String} {value : Json} :
    CleanBut names (record.withField name value) ↔
      CleanBut (name :: names) record ∧
        (name ∈ names ∨ CleanField (name, value)) := by
  constructor
  · intro clean
    refine ⟨fun field member => ?_, ?_⟩
    · by_cases isName : field.1 = name
      · exact Or.inl (isName ▸ List.mem_cons_self)
      · exact (clean field
          (Record.mem_withField.mpr (Or.inr ⟨member, isName⟩))).imp_left
            (List.mem_cons_of_mem name)
    · exact clean (name, value) (Record.mem_withField.mpr (Or.inl rfl))
  · rintro ⟨kept, set⟩ field member
    rcases Record.mem_withField.mp member with rfl | ⟨old, differs⟩
    · exact set
    · exact (kept field old).imp_left fun listed =>
        (List.mem_cons.mp listed).resolve_left differs

/-- What is set last is what there is. -/
theorem clean_update {record fields : Record} :
    Clean (record.update fields) ↔
      CleanBut fields.names record ∧ WritesClean fields := by
  induction fields generalizing record with
  | nil =>
      have nothing : Clean record ↔ CleanBut [] record :=
        forall₂_congr fun field _ =>
          (or_iff_right (List.not_mem_nil)).symm
      exact nothing.trans (iff_of_eq (and_true _)).symm
  | cons field fields induction =>
      rw [Record.update_cons, induction, cleanBut_withField, WritesClean,
        and_assoc]
      rfl

/-- Do the settings that are written leave a clean header clean? -/
def Rewrite.SettingsClean (header : Record) (rewrite : Rewrite) : Prop :=
  WritesClean (rewrite.fields header) ∧ WritesClean rewrite.runConfig

theorem clean_header (clean : Clean trace.header) (rewrite : Rewrite) :
    Clean (rewrite.header trace) ↔
      rewrite.SettingsClean trace.header := by
  have cleanUpdate {record : Record} (cleanRecord : Clean record)
      (fields : Record) :
      Clean (record.update fields) ↔ WritesClean fields :=
    clean_update.trans
      (and_iff_right fun field member => Or.inr (cleanRecord field member))
  have cleanBase : Clean (rewrite.base.update trace.header) :=
    Record.forall_update
      (fun field member => (rewrite.base_fields.2 field member).2) clean
  have nameClean :
      ∀ char ∈ "run_config".toList, isSeparator char = false := by
    simp [isSeparator]
  have cleanRunConfig : Clean trace.runConfig :=
    (cleanField_obj nameClean).mp
      (clean _ (mem_of_fieldOf trace.hasRunConfig))
  have others :
      CleanBut ["run_config"]
          ((rewrite.base.update trace.header).update
            (rewrite.fields trace.header)) ↔
        Clean ((rewrite.base.update trace.header).update
          (rewrite.fields trace.header)) := by
    have own : ∀ field ∈ (rewrite.base.update trace.header).update
        (rewrite.fields trace.header),
          field.1 = "run_config" → CleanField field := by
      apply Record.forall_update
      · exact fun field member _ => cleanBase field member
      · intro field member isName
        exact absurd isName
          (rewrite.settable_fields trace.header field member).2.1
    constructor
    · intro cleanBut field member
      rcases cleanBut field member with isName | cleanField
      · exact own field member (List.mem_singleton.mp isName)
      · exact cleanField
    · exact fun cleanAll field member => Or.inr (cleanAll field member)
  have whole :
      Clean (rewrite.header trace) ↔
        CleanBut [] (rewrite.header trace) :=
    forall₂_congr fun field _ => (or_iff_right List.not_mem_nil).symm
  rw [whole, Rewrite.header, cleanBut_withField, others,
    or_iff_right List.not_mem_nil, cleanField_obj nameClean,
    cleanUpdate cleanBase, cleanUpdate cleanRunConfig,
    Rewrite.SettingsClean]

end Readers

/-- Are the settings clean that are written, one file after the other? -/
def SettingsClean : List Rewrite → TraceFile → Prop
  | [], _ => True
  | rewrite :: rewrites, trace =>
      rewrite.SettingsClean trace.header ∧
        SettingsClean rewrites (trace.rewrite rewrite)

/--
Does every reader recover the records of a file and of each file that is
written anew?
-/
def RoundTrips : List Rewrite → Text → TraceFile → Prop
  | [], text, trace => Recovers text trace
  | rewrite :: rewrites, text, trace =>
      Recovers text trace ∧
        ∃ written, rewrite.apply text = .ok written ∧
          RoundTrips rewrites written (trace.rewrite rewrite)

/--
Trace files round trip if and only if no string of their records, and of the
settings that are written, has a separator.
-/
theorem roundTrips_iff (trace : TraceFile) (rewrites : List Rewrite) :
    RoundTrips rewrites trace.text trace ↔
      (∀ record ∈ trace.records, Clean record) ∧
        SettingsClean rewrites trace := by
  induction rewrites generalizing trace with
  | nil => exact (recovers_iff trace).trans (iff_of_eq (and_true _)).symm
  | cons rewrite rewrites induction =>
      rw [RoundTrips, SettingsClean, recovers_iff]
      refine and_congr_right fun clean => ?_
      rw [TraceFile.records, List.forall_mem_cons] at clean
      have written := (recovers trace
        (List.forall_mem_cons.mpr clean)).rewrites rewrite
      have later :
          (∃ text, rewrite.apply trace.text = .ok text ∧
              RoundTrips rewrites text (trace.rewrite rewrite)) ↔
            RoundTrips rewrites (trace.rewrite rewrite).text
              (trace.rewrite rewrite) := by
        rw [written]
        constructor
        · rintro ⟨_, same, roundTrips⟩
          cases same
          exact roundTrips
        · exact fun roundTrips => ⟨_, rfl, roundTrips⟩
      have records :
          (∀ record ∈ (trace.rewrite rewrite).records, Clean record) ↔
            rewrite.SettingsClean trace.header := by
        rw [TraceFile.records, List.forall_mem_cons,
          ← clean_header trace clean.1]
        exact and_iff_left clean.2
      rw [later, induction, records]

/-- A tool has printed a line separator. -/
def separatedTrace : TraceFile where
  header :=
    [("type", .str "trace_metadata"), ("run_config", .obj [])]
  runConfig := []
  body :=
    [[("type", .str "action"), ("action_type", .str "tool_exec"),
      ("action_id", .str "tool_0_exec"),
      ("data", .obj [("tool_name", .str "exec"),
        ("tool_result", .str "one\u2028two")])]]
  headerWellFormed := by simp [WellFormed, WellFormedFields]
  bodyWellFormed := by simp [WellFormed, WellFormedFields]
  isMetadata := by decide
  hasRunConfig := by rfl
  noMetadata := by decide
  actionData := by
    intro record member _
    rw [List.mem_singleton] at member
    rw [member]
    exact ⟨_, rfl⟩

theorem separated_not_recovered :
    traceSummaryTotals separatedTrace.text = .error .decode ∧
      ¬ RoundTrips [] separatedTrace.text separatedTrace := by
  have unclean : ¬ ∀ record ∈ separatedTrace.records, Clean record := by
    decide
  have failed : traceSummaryTotals separatedTrace.text = .error .decode := by
    rw [traceSummaryTotals, TraceFile.text,
      strictRecords_separator (recordsWellFormed separatedTrace) unclean]
    rfl
  refine ⟨failed, fun recovered => ?_⟩
  have totals := recovered.totals
  rw [failed] at totals
  cases totals

end AgentSchedBench.Trace
