import AgentSchedBench.Agent.Runner

/-!
# Results that are normalised again

The runner normalises all results before each request.  A result that is
persisted becomes a reference to a file, which is cut where it is longer than
the limit.  A cut reference is persisted once more, as a result of its own.
-/

namespace AgentSchedBench.Agent

/-! ## The files that are written -/

/-- The file that `maybe_persist_tool_result` writes, given those that
exist. -/
def writtenFile
    (toolResultPath : Option (String → String → String))
    (files : String → Prop) [DecidablePred files] (toolCallId : String)
    (content : Content) (maxChars : Int) : Option String :=
  match toolResultPath, textPayload content with
  | some path, some (text, suffix) =>
      if maxChars ≤ 0 ∨ (text.length : Int) ≤ maxChars then none
      else if files (path toolCallId suffix) then none
      else some (path toolCallId suffix)
  | _, _ => none

/-- The file that `AgentRunner._normalize_tool_result` writes. -/
def normalizeWrites
    (spec : AgentRunSpec) (writeFails : Bool) (files : String → Prop)
    [DecidablePred files] (toolCallId toolName : String) (result : Content) :
    Option String :=
  if writeFails then none
  else
    writtenFile spec.toolResultPath files toolCallId
      (ensureNonemptyToolResult toolName result) spec.maxToolResultChars

section Twice

variable (spec : AgentRunSpec) (writeFails : Bool) (files : String → Prop)
  [DecidablePred files] (toolCallId toolName : String) (result : Content)

/-- The files that exist when a result has been normalised. -/
def filesAfter (path : String) : Prop :=
  files path ∨
    normalizeWrites spec writeFails files toolCallId toolName result = some path

instance : DecidablePred
    (filesAfter spec writeFails files toolCallId toolName result) :=
  fun _ => inferInstanceAs (Decidable (_ ∨ _))

/-- A normalised result is not changed when it is normalised again, and no
further file is written. -/
def SettlesAtOnce : Prop :=
  let normalized :=
    normalizeToolResult spec writeFails toolCallId toolName result
  normalizeToolResult spec writeFails toolCallId toolName normalized =
      normalized ∧
    normalizeWrites spec writeFails
      (filesAfter spec writeFails files toolCallId toolName result)
      toolCallId toolName normalized = none

/-! ## References -/

/-- The reference to a text that is persisted. -/
def referenceTo (filepath text : String) : String :=
  renderToolResultReference filepath text.length
    (String.ofList (text.toList.take toolResultPreviewChars))
    (toolResultPreviewChars < text.length)

/-- The path for each suffix, the text and the suffix of a result that is
persisted. -/
def persisted? : Option ((String → String) × String × String) :=
  if writeFails then none
  else
    match spec.toolResultPath,
        textPayload (ensureNonemptyToolResult toolName result) with
    | some path, some (text, suffix) =>
        if spec.maxToolResultChars ≤ 0 ∨
            (text.length : Int) ≤ spec.maxToolResultChars then none
        else some (path toolCallId, text, suffix)
    | _, _ => none

/-- The file of a cut reference exists, and the reference to it is cut to the
same text. -/
structure CutAlike (path : String → String) (text suffix : String) :
    Prop where
  exists_file : files (path "txt") ∨ path suffix = path "txt"
  longer :
    spec.maxToolResultChars <
      (referenceTo (path "txt")
        (truncateText (referenceTo (path suffix) text)
          spec.maxToolResultChars)).length
  same_start :
    (referenceTo (path "txt")
        (truncateText (referenceTo (path suffix) text)
          spec.maxToolResultChars)).toList.take
        spec.maxToolResultChars.toNat =
      (referenceTo (path suffix) text).toList.take
        spec.maxToolResultChars.toNat

end Twice

/-! ## Blanks -/

theorem isBlank_append (first second : String) :
    isBlank (first ++ second) = (isBlank first && isBlank second) := by
  rw [isBlank, String.toList_append, List.all_append, isBlank, isBlank]

theorem isBlank_emptyToolResultMessage (toolName : String) :
    isBlank (emptyToolResultMessage toolName) = false := by
  rw [emptyToolResultMessage, isBlank_append, isBlank_append,
    show isBlank "(" = false from by decide]
  rfl

theorem isBlank_truncateText {text : String} (notBlank : isBlank text = false)
    (maxChars : Int) : isBlank (truncateText text maxChars) = false := by
  rw [truncateText]
  split
  · exact notBlank
  · rw [isBlank_append,
      show isBlank "\n... (truncated)" = false from by decide, Bool.and_false]

theorem isBlank_referenceTo (filepath text : String) :
    isBlank (referenceTo filepath text) = false := by
  have front :
      isBlank "[tool output persisted]\nFull output saved to: " = false := by
    decide
  unfold referenceTo renderToolResultReference
  simp only [isBlank_append, front, Bool.false_and]

/-- A content that is not empty, as the runner takes it. -/
def NotEmpty (content : Content) : Prop :=
  ∀ toolName, ensureNonemptyToolResult toolName content = content

theorem notEmpty_text {text : String} :
    isBlank text = false → NotEmpty (.text text) := by
  intro notBlank toolName
  rw [ensureNonemptyToolResult, notBlank]
  rfl

theorem notEmpty_ensure (toolName : String) (result : Content) :
    NotEmpty (ensureNonemptyToolResult toolName result) := by
  have marked := notEmpty_text (isBlank_emptyToolResultMessage toolName)
  match result with
  | .none => exact marked
  | .text value =>
      rw [ensureNonemptyToolResult]
      split
      · exact marked
      · next notBlank => exact notEmpty_text (Bool.eq_false_iff.mpr notBlank)
  | .blocks items =>
      rw [ensureNonemptyToolResult]
      split
      · exact marked
      · next someBlocks =>
          split
          · next textPayload isText =>
              split
              · exact marked
              · next notBlank =>
                  intro other
                  rw [ensureNonemptyToolResult, if_neg someBlocks, isText]
                  exact if_neg notBlank
          · next noText =>
              intro other
              rw [ensureNonemptyToolResult, if_neg someBlocks, noText]

/-! ## One normalisation -/

/-- What the limit makes of a content. -/
def cut (maxChars : Int) : Content → Content
  | .text value => .text (truncateText value maxChars)
  | content => content

section Once

variable {spec : AgentRunSpec} {writeFails : Bool}
  {toolCallId toolName : String} {result : Content}

theorem normalizeToolResult_eq_cut (spec : AgentRunSpec) (writeFails : Bool)
    (toolCallId toolName : String) (result : Content) :
    normalizeToolResult spec writeFails toolCallId toolName result =
      cut spec.maxToolResultChars
        (if writeFails then ensureNonemptyToolResult toolName result
        else
          maybePersistToolResult spec.toolResultPath toolCallId
            (ensureNonemptyToolResult toolName result)
            spec.maxToolResultChars) := by
  rw [normalizeToolResult.eq_def]
  dsimp only
  generalize
    (if writeFails = true then ensureNonemptyToolResult toolName result
      else
        maybePersistToolResult spec.toolResultPath toolCallId
          (ensureNonemptyToolResult toolName result)
          spec.maxToolResultChars) = content
  cases content <;> rfl

theorem normalize_of_not_persisted (files : String → Prop)
    [DecidablePred files]
    (isNone : persisted? spec writeFails toolCallId toolName result = none) :
    normalizeToolResult spec writeFails toolCallId toolName result =
        cut spec.maxToolResultChars
          (ensureNonemptyToolResult toolName result) ∧
      normalizeWrites spec writeFails files toolCallId toolName result =
        none := by
  rw [persisted?] at isNone
  rw [normalizeToolResult_eq_cut, normalizeWrites]
  split at isNone
  · next fails => rw [if_pos fails, if_pos fails]; exact ⟨rfl, rfl⟩
  · next works =>
      rw [if_neg works, if_neg works, maybePersistToolResult.eq_def,
        writtenFile.eq_def]
      generalize spec.toolResultPath = resultPath at isNone ⊢
      generalize textPayload (ensureNonemptyToolResult toolName result) =
        payload at isNone ⊢
      match resultPath, payload with
      | none, _ | some _, none => exact ⟨rfl, rfl⟩
      | some path, some (text, suffix) =>
          dsimp only at isNone
          have short :
              spec.maxToolResultChars ≤ 0 ∨
                (text.length : Int) ≤ spec.maxToolResultChars :=
            Classical.not_not.mp fun long => by
              rw [if_neg long] at isNone
              cases isNone
          dsimp only
          rw [if_pos short, if_pos short]
          exact ⟨rfl, rfl⟩

theorem normalize_of_persisted (files : String → Prop)
    [DecidablePred files] {path : String → String} {text suffix : String}
    (isPersisted :
      persisted? spec writeFails toolCallId toolName result =
        some (path, text, suffix)) :
    normalizeToolResult spec writeFails toolCallId toolName result =
        .text (truncateText (referenceTo (path suffix) text)
          spec.maxToolResultChars) ∧
      normalizeWrites spec writeFails files toolCallId toolName result =
        if files (path suffix) then none else some (path suffix) := by
  rw [persisted?, Option.ite_none_left_eq_some] at isPersisted
  obtain ⟨works, isPersisted⟩ := isPersisted
  rw [normalizeToolResult_eq_cut, normalizeWrites, if_neg works, if_neg works,
    maybePersistToolResult.eq_def, writtenFile.eq_def]
  cases isPath : spec.toolResultPath with
  | none =>
      rw [isPath] at isPersisted
      cases isPersisted
  | some resultPath =>
      cases isText : textPayload (ensureNonemptyToolResult toolName result) with
      | none =>
          rw [isPath, isText] at isPersisted
          cases isPersisted
      | some payload =>
          rw [isPath, isText] at isPersisted
          dsimp only at isPersisted ⊢
          rw [Option.ite_none_left_eq_some] at isPersisted
          obtain ⟨long, same⟩ := isPersisted
          cases same
          rw [if_neg long, if_neg long]
          exact ⟨rfl, rfl⟩

end Once

/-! ## Texts that are cut -/

section Cut

variable {maxChars : Int} {text : String}

theorem truncateText_short
    (short : maxChars ≤ 0 ∨ (text.length : Int) ≤ maxChars) :
    truncateText text maxChars = text := by
  rw [truncateText, if_pos short]

theorem truncateText_long (positive : 0 < maxChars)
    (long : maxChars < text.length) :
    truncateText text maxChars =
      String.ofList (text.toList.take maxChars.toNat) ++
        "\n... (truncated)" := by
  rw [truncateText, if_neg (by omega)]

/-- A text that is cut is longer than the limit. -/
theorem length_truncateText (positive : 0 < maxChars)
    (long : maxChars < text.length) :
    ((truncateText text maxChars).length : Int) = maxChars + 16 := by
  have marker : "\n... (truncated)".length = 16 := by decide
  rw [truncateText_long positive long, String.length_append,
    String.length_ofList, List.length_take, String.length_toList, marker]
  omega

/-- The front of a cut text is the front of the text. -/
theorem take_truncateText (positive : 0 < maxChars)
    (long : maxChars < text.length) :
    (truncateText text maxChars).toList.take maxChars.toNat =
      text.toList.take maxChars.toNat := by
  have length :
      (text.toList.take maxChars.toNat).length = maxChars.toNat := by
    rw [List.length_take, String.length_toList]
    omega
  rw [truncateText_long positive long, String.toList_append,
    String.toList_ofList, List.take_left' length]

/-- Texts are cut to one text if both are cut, and begin alike. -/
theorem truncateText_eq_iff {other : String} (positive : 0 < maxChars)
    (long : maxChars < text.length) :
    truncateText other maxChars = truncateText text maxChars ↔
      maxChars < other.length ∧
        other.toList.take maxChars.toNat =
          text.toList.take maxChars.toNat := by
  constructor
  · intro same
    have otherLong : maxChars < other.length := by
      by_contra short
      have lengths := congrArg String.length same
      rw [truncateText_short (Or.inr (Int.not_lt.mp short))] at lengths
      have := length_truncateText positive long
      omega
    refine ⟨otherLong, ?_⟩
    rw [← take_truncateText positive otherLong, same,
      take_truncateText positive long]
  · rintro ⟨otherLong, same⟩
    rw [truncateText_long positive otherLong, same,
      truncateText_long positive long]

theorem truncateText_truncateText (text : String) (maxChars : Int) :
    truncateText (truncateText text maxChars) maxChars =
      truncateText text maxChars := by
  by_cases short : maxChars ≤ 0 ∨ (text.length : Int) ≤ maxChars
  · rw [truncateText_short short, truncateText_short short]
  · have positive : 0 < maxChars := by omega
    have long : maxChars < text.length := by omega
    refine (truncateText_eq_iff positive long).mpr
      ⟨?_, take_truncateText positive long⟩
    rw [length_truncateText positive long]
    omega

end Cut

/-! ## Both normalisations -/

section Settles

variable {spec : AgentRunSpec} {writeFails : Bool}
  {toolCallId toolName : String} {result : Content}

theorem persisted?_text {text : String} (notBlank : isBlank text = false) :
    persisted? spec writeFails toolCallId toolName (.text text) =
      if writeFails then none
      else
        match spec.toolResultPath with
        | none => none
        | some path =>
            if spec.maxToolResultChars ≤ 0 ∨
                (text.length : Int) ≤ spec.maxToolResultChars then none
            else some (path toolCallId, text, "txt") := by
  rw [persisted?, notEmpty_text notBlank, textPayload]
  cases spec.toolResultPath <;> rfl

/-- What is persisted is longer than the limit. -/
theorem long_of_persisted {path : String → String} {text suffix : String}
    (isPersisted :
      persisted? spec writeFails toolCallId toolName result =
        some (path, text, suffix)) :
    0 < spec.maxToolResultChars ∧ spec.maxToolResultChars < text.length ∧
      writeFails = false ∧
      ∃ paths, spec.toolResultPath = some paths ∧ path = paths toolCallId := by
  rw [persisted?, Option.ite_none_left_eq_some] at isPersisted
  obtain ⟨works, isPersisted⟩ := isPersisted
  split at isPersisted
  · next paths payload payloadSuffix isPath isText =>
      rw [Option.ite_none_left_eq_some] at isPersisted
      obtain ⟨long, same⟩ := isPersisted
      cases same
      exact ⟨by omega, by omega, Bool.eq_false_iff.mpr works, paths, isPath,
        rfl⟩
  · cases isPersisted

theorem persisted?_ensure :
    persisted? spec writeFails toolCallId toolName
        (ensureNonemptyToolResult toolName result) =
      persisted? spec writeFails toolCallId toolName result := by
  rw [persisted?, persisted?, notEmpty_ensure toolName result toolName]

theorem isBlank_of_notEmpty {text : String} (notEmpty : NotEmpty (.text text)) :
    isBlank text = false := by
  by_contra blank
  have marked := notEmpty ""
  rw [ensureNonemptyToolResult, if_pos (eq_true_of_ne_false blank)] at marked
  cases marked
  exact blank (isBlank_emptyToolResultMessage "")

/-- What the limit makes of a content that is not persisted is none that is
persisted, and not empty. -/
theorem cut_of_not_persisted {content : Content} (notEmpty : NotEmpty content)
    (isNone : persisted? spec writeFails toolCallId toolName content = none) :
    NotEmpty (cut spec.maxToolResultChars content) ∧
      persisted? spec writeFails toolCallId toolName
        (cut spec.maxToolResultChars content) = none ∧
      cut spec.maxToolResultChars (cut spec.maxToolResultChars content) =
        cut spec.maxToolResultChars content := by
  match content with
  | .none | .blocks _ => exact ⟨notEmpty, isNone, rfl⟩
  | .text text =>
      have notBlank := isBlank_of_notEmpty notEmpty
      refine ⟨notEmpty_text (isBlank_truncateText notBlank _), ?_,
        congrArg Content.text (truncateText_truncateText text _)⟩
      rw [persisted?_text notBlank] at isNone
      rw [cut, persisted?_text (isBlank_truncateText notBlank _)]
      split
      · rfl
      · next works =>
          rw [if_neg works] at isNone
          cases isPath : spec.toolResultPath with
          | none => rfl
          | some path =>
              rw [isPath] at isNone
              dsimp only at isNone ⊢
              have short :
                  spec.maxToolResultChars ≤ 0 ∨
                    (text.length : Int) ≤ spec.maxToolResultChars :=
                Classical.not_not.mp fun long => by
                  rw [if_neg long] at isNone
                  cases isNone
              rw [truncateText_short short, if_pos short]

/-- A result that is not persisted settles at once. -/
theorem settles_of_not_persisted (files : String → Prop)
    [DecidablePred files]
    (isNone : persisted? spec writeFails toolCallId toolName result = none) :
    SettlesAtOnce spec writeFails files toolCallId toolName result := by
  have ensured :
      persisted? spec writeFails toolCallId toolName
        (ensureNonemptyToolResult toolName result) = none :=
    persisted?_ensure.trans isNone
  obtain ⟨notEmpty, cutNone, twice⟩ :=
    cut_of_not_persisted (notEmpty_ensure toolName result) ensured
  have first := normalize_of_not_persisted files isNone
  have second := normalize_of_not_persisted
    (filesAfter spec writeFails files toolCallId toolName result) cutNone
  rw [SettlesAtOnce, first.1, second.1, second.2, notEmpty toolName]
  exact ⟨twice, rfl⟩

theorem filesAfter_txt (files : String → Prop) [DecidablePred files]
    {path : String → String} {text suffix : String}
    (isPersisted :
      persisted? spec writeFails toolCallId toolName result =
        some (path, text, suffix)) :
    filesAfter spec writeFails files toolCallId toolName result (path "txt") ↔
      files (path "txt") ∨ path suffix = path "txt" := by
  rw [filesAfter, (normalize_of_persisted files isPersisted).2]
  split
  · next isThere =>
      constructor
      · rintro (there | none)
        · exact Or.inl there
        · cases none
      · rintro (there | same)
        · exact Or.inl there
        · exact Or.inl (same ▸ isThere)
  · rw [Option.some.injEq]

/-- A result that is persisted settles at once if and only if its reference
is within the limit, or is cut like the reference to itself. -/
theorem settles_of_persisted (files : String → Prop) [DecidablePred files]
    {path : String → String} {text suffix : String}
    (isPersisted :
      persisted? spec writeFails toolCallId toolName result =
        some (path, text, suffix)) :
    SettlesAtOnce spec writeFails files toolCallId toolName result ↔
      ((referenceTo (path suffix) text).length : Int) ≤
          spec.maxToolResultChars ∨
        CutAlike spec files path text suffix := by
  obtain ⟨positive, -, rfl, paths, isPath, rfl⟩ :=
    long_of_persisted isPersisted
  have first := normalize_of_persisted files isPersisted
  have notBlank := isBlank_truncateText
    (isBlank_referenceTo (paths toolCallId suffix) text)
    spec.maxToolResultChars
  have again :
      persisted? spec false toolCallId toolName
          (.text (truncateText (referenceTo (paths toolCallId suffix) text)
            spec.maxToolResultChars)) = _ :=
    persisted?_text notBlank
  rw [isPath, if_neg Bool.false_ne_true] at again
  dsimp only at again
  rw [SettlesAtOnce, first.1]
  by_cases fits :
      ((referenceTo (paths toolCallId suffix) text).length : Int) ≤
        spec.maxToolResultChars
  · refine iff_of_true ?_ (Or.inl fits)
    rw [truncateText_short (Or.inr fits), if_pos (Or.inr fits)] at again
    rw [truncateText_short (Or.inr fits)] at notBlank ⊢
    have second := normalize_of_not_persisted
      (filesAfter spec false files toolCallId toolName result) again
    rw [second.1, second.2, notEmpty_text notBlank toolName, cut,
      truncateText_short (Or.inr fits)]
    exact ⟨rfl, rfl⟩
  · have long := Int.not_le.mp fits
    have length := length_truncateText positive long
    rw [if_neg (by omega)] at again
    have second := normalize_of_persisted
      (filesAfter spec false files toolCallId toolName result) again
    rw [second.1, second.2, Content.text.injEq,
      truncateText_eq_iff positive long]
    have isThere := filesAfter_txt files isPersisted
    constructor
    · rintro ⟨⟨longer, sameStart⟩, noFile⟩
      refine Or.inr ⟨isThere.mp ?_, longer, sameStart⟩
      by_contra missing
      rw [if_neg missing] at noFile
      cases noFile
    · rintro (short | alike)
      · exact absurd short fits
      · exact ⟨⟨alike.longer, alike.same_start⟩,
          if_pos (isThere.mpr alike.exists_file)⟩

/-- Each result settles at once if and only if it is not persisted, or its
reference is within the limit, or is cut like the reference to itself. -/
theorem settlesAtOnce_iff (spec : AgentRunSpec) (writeFails : Bool)
    (files : String → Prop) [DecidablePred files]
    (toolCallId toolName : String) (result : Content) :
    SettlesAtOnce spec writeFails files toolCallId toolName result ↔
      ∀ path text suffix,
        persisted? spec writeFails toolCallId toolName result =
            some (path, text, suffix) →
          ((referenceTo (path suffix) text).length : Int) ≤
              spec.maxToolResultChars ∨
            CutAlike spec files path text suffix := by
  cases isPersisted :
      persisted? spec writeFails toolCallId toolName result with
  | none =>
      exact iff_of_true (settles_of_not_persisted files isPersisted) nofun
  | some found =>
      obtain ⟨path, text, suffix⟩ := found
      rw [settles_of_persisted files isPersisted]
      constructor
      · rintro fits _ _ _ ⟨⟩
        exact fits
      · exact fun fits => fits path text suffix rfl

end Settles

/-- A limit that is a little longer than the first lines of a reference. -/
def tightSpec : AgentRunSpec where
  toolNames := []
  maxIterations := 1
  maxToolResultChars := 100
  errorMessage := none
  maxIterationsMessage := none
  failOnToolError := false
  toolResultPath :=
    some fun id suffix => "/r/tool-results/s/" ++ id ++ "." ++ suffix
  malformedRetryBudget := 3

def callPath (suffix : String) : String :=
  "/r/tool-results/s/" ++ "c1" ++ "." ++ suffix

theorem callPath_txt : callPath "txt" = "/r/tool-results/s/c1.txt" := by
  unfold callPath
  simp only [String.reduceAppend]

/-- The lines of a reference that lead to the size of the text. -/
def referenceFront : List Char :=
  "[tool output persisted]\nFull output saved to: ".toList ++
    "/r/tool-results/s/c1.txt".toList ++ "\nOriginal size: ".toList

theorem toList_referenceTo_callPath (text : String) :
    ∃ rest,
      (referenceTo (callPath "txt") text).toList =
        referenceFront ++ ((toString text.length).toList ++ rest) ∧
        (text.toList.take toolResultPreviewChars).length ≤ rest.length := by
  refine ⟨" chars\nPreview:\n".toList ++
    (text.toList.take toolResultPreviewChars ++
    (if decide (toolResultPreviewChars < text.length) = true then
      "\n...\n(Read the saved file if you need the full output.)"
    else "").toList), ?_, ?_⟩
  · rw [callPath_txt]
    unfold referenceTo renderToolResultReference referenceFront
    simp only [String.toList_append, String.toList_ofList, List.append_assoc]
  · simp only [List.length_append]
    omega

section Tight

variable {text : String}

theorem tight_persisted (length : text.length = 130)
    (notBlank : isBlank text = false) :
    persisted? tightSpec false "c1" "exec" (.text text) =
      some (callPath, text, "txt") := by
  rw [persisted?_text notBlank, length, if_neg Bool.false_ne_true]
  change
    (if (100 : Int) ≤ 0 ∨ ((130 : Nat) : Int) ≤ 100 then none
      else some (callPath, text, "txt")) = _
  exact if_neg (by decide)

theorem tight_long (length : text.length = 130) :
    tightSpec.maxToolResultChars <
      (referenceTo (callPath "txt") text).length := by
  obtain ⟨rest, isReference, long⟩ := toList_referenceTo_callPath text
  rw [List.length_take, String.length_toList, length] at long
  have limit : tightSpec.maxToolResultChars = 100 := rfl
  have preview : toolResultPreviewChars = 1200 := rfl
  rw [← String.length_toList, isReference]
  simp only [List.length_append]
  omega

/-- The reference to a text of 130 characters is cut, and cut again when it is
taken for a text of 116. -/
theorem tight_not_settles (length : text.length = 130)
    (notBlank : isBlank text = false) :
    ¬ SettlesAtOnce tightSpec false (fun _ => False) "c1" "exec"
      (.text text) := by
  rw [settles_of_persisted _ (tight_persisted length notBlank)]
  rintro (fits | alike)
  · exact absurd fits (Int.not_le.mpr (tight_long length))
  · have again :
        (truncateText (referenceTo (callPath "txt") text)
          tightSpec.maxToolResultChars).length = 116 := by
      have cutLength := length_truncateText (by decide) (tight_long length)
      have limit : tightSpec.maxToolResultChars = 100 := rfl
      omega
    obtain ⟨rest, isReference, -⟩ := toList_referenceTo_callPath text
    obtain ⟨others, isOther, -⟩ := toList_referenceTo_callPath
      (truncateText (referenceTo (callPath "txt") text)
        tightSpec.maxToolResultChars)
    have same := alike.same_start
    rw [isReference, isOther, again, length] at same
    have digit := congrArg (·[87]?) same
    cases digit

end Tight

theorem letters_not_settle :
    ¬ SettlesAtOnce tightSpec false (fun _ => False) "c1" "exec"
      (.text (String.ofList (List.replicate 130 'x'))) := by
  apply tight_not_settles
  · rw [String.length_ofList, List.length_replicate]
  · rw [isBlank, String.toList_ofList, List.all_replicate]
    rfl

end AgentSchedBench.Agent
