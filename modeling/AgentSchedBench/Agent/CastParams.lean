import Mathlib.Data.List.Basic
import AgentSchedBench.Agent.ValidateSchema

/-!
# Casting and validation agree

A cast of what is cast changes nothing, and neither does one of what is valid.
What is valid satisfies the schema if each part of the schema has one type
besides null, and no value of that type is taken for another one.
-/

namespace AgentSchedBench.Agent

/-! ## Casting -/

section Cast

variable {python : ParamText}

theorem castProperty_eq (props : List (String × Schema)) (key : String)
    (val : Param) :
    castProperty python props key val =
      match props.lookup key with
      | some schema => castValue python schema val
      | none => val := by
  induction props with
  | nil => rw [castProperty, List.lookup_nil]
  | cons prop props induction =>
      rw [castProperty, List.lookup_cons]
      by_cases isKey : prop.1 = key
      · rw [if_pos isKey, beq_iff_eq.mpr isKey.symm]
      · rw [if_neg isKey, beq_eq_false_iff_ne.mpr (Ne.symm isKey)]
        exact induction

variable {keywords : Keywords} {properties : Option (List (String × Schema))}
  {items : Option Schema} {oneOf anyOf : Option (List Schema)}

/-- A cast changes nothing, or a value that has not the type into one that it
leaves as it is, or the items of a list, or the fields of a dictionary. -/
theorem castValue_cases (val : Param) :
    let cast := castValue python (.mk keywords properties items oneOf anyOf)
    cast val = val ∨
      failsType (resolveType keywords.type) val = true ∧
        cast (cast val) = cast val ∨
      (∃ schema ∈ items, resolveType keywords.type = some .array ∧
        ∃ values, val = .list values ∧ ∀ values, cast (.list values) =
          .list (values.map fun item => castValue python schema item)) ∨
      ∃ props ∈ properties, resolveType keywords.type = some .object ∧
        ∃ fields, val = .dict fields ∧ ∀ fields, cast (.dict fields) =
          .dict (fields.map fun (key, value) =>
            (key, castProperty python props key value)) := by
  intro cast
  cases isType : resolveType keywords.type with
  | none => exact .inl (by simp [cast, castValue, isType])
  | some type =>
      cases type with
      | string =>
          cases val with
          | str _ | null => exact .inl (by simp [cast, castValue, isType])
          | _ => exact .inr (.inl ⟨rfl, by simp [cast, castValue, isType]⟩)
      | integer =>
          cases val with
          | str text =>
              cases read : python.readInt text with
              | none => exact .inl (by simp [cast, castValue, isType, read])
              | some value =>
                  refine .inr (.inl ⟨rfl, ?_⟩)
                  simp [cast, castValue, isType, read]
          | number value =>
              cases value <;> exact .inl (by simp [cast, castValue, isType])
          | _ => exact .inl (by simp [cast, castValue, isType])
      | number =>
          cases val with
          | str text =>
              cases read : python.readFloat text with
              | none => exact .inl (by simp [cast, castValue, isType, read])
              | some value =>
                  refine .inr (.inl ⟨rfl, ?_⟩)
                  simp [cast, castValue, isType, read]
          | _ => exact .inl (by simp [cast, castValue, isType])
      | boolean =>
          cases val with
          | str text =>
              refine .inr (.inl ⟨rfl, ?_⟩)
              simp only [cast, castValue, isType]
              split
              · simp only [castValue, isType]
              · split <;> simp only [castValue, *, if_false]
          | _ => exact .inl (by simp [cast, castValue, isType])
      | array =>
          cases val with
          | list values =>
              cases items with
              | none => exact .inl (by simp [cast, castValue, isType])
              | some schema =>
                  refine .inr (.inr (.inl
                    ⟨schema, rfl, rfl, values, rfl, fun _ => ?_⟩))
                  simp [cast, castValue, isType]
          | _ => exact .inl (by simp [cast, castValue, isType])
      | object =>
          cases val with
          | dict fields =>
              cases properties with
              | none => exact .inl (by simp [cast, castValue, isType])
              | some props =>
                  refine .inr (.inr (.inr
                    ⟨props, rfl, rfl, fields, rfl, fun _ => ?_⟩))
                  simp [cast, castValue, isType]
          | _ => exact .inl (by simp [cast, castValue, isType])
      | _ => exact .inl (by simp [cast, castValue, isType])

/-- A cast of what is cast changes nothing. -/
theorem castValue_castValue (schema : Schema) (val : Param) :
    castValue python schema (castValue python schema val) =
      castValue python schema val := by
  induction schema using Schema.induction generalizing val with
  | step =>
      intro keywords properties items oneOf anyOf ofProperties ofItems _ _ val
      rcases castValue_cases val with same | ⟨_, same⟩ |
        ⟨schema, isItems, _, values, rfl, cast⟩ |
        ⟨props, isProperties, _, fields, rfl, cast⟩
      · rw [same, same]
      · exact same
      · rw [cast, cast, List.map_map]
        congr 1
        exact List.map_congr_left fun item _ => ofItems schema isItems item
      · rw [cast, cast, List.map_map]
        congr 1
        refine List.map_congr_left fun field _ => Prod.ext rfl ?_
        change castProperty python props field.1
            (castProperty python props field.1 field.2) =
          castProperty python props field.1 field.2
        simp only [castProperty_eq]
        cases isProperty : props.lookup field.1 with
        | none => rfl
        | some schema =>
            exact ofProperties props isProperties _
              (mem_of_lookup isProperty) field.2

theorem castValue_null (schema : Schema) :
    castValue python schema .null = .null := by
  obtain ⟨keywords, properties, items, oneOf, anyOf⟩ := schema
  cases isType : resolveType keywords.type with
  | none => simp [castValue, isType]
  | some type => cases type <;> simp [castValue, isType]

/-- A cast leaves what is valid as it is. -/
theorem castValue_of_validate {schema : Schema} {val : Param} {path : String}
    (valid : validate schema val path = []) :
    castValue python schema val = val := by
  induction schema using Schema.induction generalizing val path with
  | step =>
      intro keywords properties items oneOf anyOf ofProperties ofItems _ _ val
        path valid
      obtain ⟨_, isNull⟩ | ⟨hasType, _, ofObject, ofArray⟩ :=
        validate_eq_nil.mp valid
      · cases val with
        | null => exact castValue_null _
        | _ => cases isNull
      · rcases castValue_cases val with same | ⟨fails, _⟩ |
          ⟨schema, isItems, isArray, values, rfl, cast⟩ |
          ⟨props, isProperties, isObject, fields, rfl, cast⟩
        · exact same
        · rw [hasType] at fails
          cases fails
        · rw [cast]
          congr 1
          calc values.map _
            _ = values.map id := List.map_congr_left fun item member => by
              obtain ⟨index, isItem⟩ := List.mem_iff_getElem?.mp member
              exact ofItems schema isItems (ofArray isArray values rfl schema
                isItems (item, index) (List.mem_zipIdx_iff_getElem?.mpr isItem))
            _ = values := List.map_id values
        · rw [cast]
          congr 1
          calc fields.map _
            _ = fields.map id := List.map_congr_left fun field member => by
              have valid := (ofObject isObject fields rfl).2 props isProperties
                field member
              rw [validateProperty_eq] at valid
              refine Prod.ext rfl ?_
              change castProperty python props field.1 field.2 = field.2
              rw [castProperty_eq]
              cases isProperty : props.lookup field.1 with
              | none => rfl
              | some schema =>
                  rw [isProperty] at valid
                  exact ofProperties props isProperties _
                    (mem_of_lookup isProperty) valid
            _ = fields := List.map_id fields

end Cast

/-! ## Regular schemas -/

/-- Plain keywords, that say null in an enumeration if it is one of the types. -/
structure Keywords.Regular (keywords : Keywords) : Prop extends keywords.Plain where
  notNullable : keywords.nullable = false
  enumNull : keywords.isNullable = true → ∀ values ∈ keywords.enum,
    .null ∈ values

/-- Each part of the schema is regular, and has no union of schemas. -/
inductive Schema.Regular : Schema → Prop
  | mk {keywords : Keywords} {properties : Option (List (String × Schema))}
      {items : Option Schema} (ofKeywords : keywords.Regular)
      (untyped : keywords.type = none → properties = none ∧ items = none)
      (ofProperties : ∀ props ∈ properties, ∀ prop ∈ props, Regular prop.2)
      (ofItems : ∀ schema ∈ items, Regular schema) :
      Regular (.mk keywords properties items none none)

namespace Keywords.Regular

variable {keywords : Keywords} (regular : keywords.Regular)

include regular

/-- The types have null if it is one of them. -/
theorem isNullable_iff :
    keywords.isNullable = true ↔
      ∃ types ∈ keywords.type, types.Matches PyFloat.Never .null := by
  rw [Keywords.isNullable, regular.notNullable, Bool.or_false]
  cases isTypes : keywords.type with
  | none => simp
  | some types =>
      obtain ⟨type, isType, known, _⟩ := regular.typed types isTypes
      cases types with
      | name first =>
          cases isType
          refine iff_of_false (nofun) ?_
          rintro ⟨_, ⟨rfl⟩, isNull⟩
          exact known.not_matches_null isNull
      | names types =>
          rw [decide_eq_true_iff]
          refine ⟨fun member => ⟨_, rfl, .null, member, trivial⟩, ?_⟩
          rintro ⟨_, ⟨rfl⟩, type, member, isNull⟩
          cases type <;> first | exact member | cases isNull

/-- Null satisfies the keywords if it is one of the types. -/
theorem satisfied_null (isNullable : keywords.isNullable = true) :
    keywords.Satisfied PyFloat.Never .null := by
  obtain ⟨types, isTypes, matchesNull⟩ := regular.isNullable_iff.mp isNullable
  refine ⟨fun other isOther => ?_, fun values isEnum => ⟨.null, ?_, rfl⟩, nofun,
    nofun, nofun, nofun, nofun⟩
  · rwa [Option.mem_unique isOther isTypes]
  · exact regular.enumNull isNullable values isEnum

/-- A value that is not passed for being null is not null, if it has a type. -/
theorem notNull {val : Param}
    (notPassed : ¬(keywords.isNullable = true ∧ val.isNull = true)) :
    ∀ types ∈ keywords.type, types.Matches PyFloat.Never val →
      val.isNull = false := by
  intro types isTypes typed
  cases val with
  | null =>
      have isNullable := regular.isNullable_iff.mpr ⟨types, isTypes, typed⟩
      exact absurd ⟨isNullable, rfl⟩ notPassed
  | _ => rfl

end Keywords.Regular

/-- What is valid is what satisfies a regular schema. -/
theorem Schema.Regular.validate_iff {schema : Schema} (regular : schema.Regular)
    {val : Param} {path : String} :
    validate schema val path = [] ↔ schema.Satisfied PyFloat.Never val := by
  induction regular generalizing val path with
  | @mk keywords properties items ofKeywords untyped _ _ ofProperties ofItems =>
      rw [Schema.satisfied_iff]
      by_cases isNull : keywords.isNullable = true ∧ val.isNull = true
      · refine iff_of_true (validate_eq_nil.mpr (.inl isNull)) ?_
        cases val with
        | null =>
            exact ⟨ofKeywords.satisfied_null isNull.1, nofun, nofun, nofun, nofun⟩
        | _ => cases isNull.2
      · rw [validate_iff_of_plain ofKeywords.toPlain untyped isNull
          (ofKeywords.notNull isNull)]
        refine and_congr_right fun _ => and_congr
          (forall₂_congr fun props isProperties => ?_)
          ((forall₂_congr fun schema isItems => ?_).trans
            (and_iff_left ⟨nofun, nofun⟩).symm)
        · refine forall₄_congr fun fields _ field _ =>
            forall₂_congr fun schema isProperty => ?_
          exact ofProperties props isProperties _ (mem_of_lookup isProperty)
        · refine forall₂_congr fun values _ => ?_
          simp only [ofItems schema isItems]
          exact forall_mem_zipIdx

/-! ## Parameters of a call -/

/-- The root of a schema of objects is cast as any other part of it. -/
theorem castParams_eq {python : ParamText} {schema : Schema}
    (isObject : schema.isObject = true) (params : Param) :
    castParams python schema params =
      castValue python schema.asObject params := by
  obtain ⟨keywords, properties, items, oneOf, anyOf⟩ := schema
  rw [castParams, if_pos isObject]
  cases params <;> cases properties <;> rfl

/-- A dictionary satisfies a schema of objects if it does so by the other
keywords. -/
theorem asObject_satisfied_iff {integers : PyFloat → Prop} {schema : Schema}
    (isObject : schema.isObject = true) (params : List (String × Param)) :
    schema.asObject.Satisfied integers (.dict params) ↔
      schema.Satisfied integers (.dict params) := by
  obtain ⟨keywords, properties, items, oneOf, anyOf⟩ := schema
  have ofType : ∀ types ∈ keywords.type, types.Matches integers (.dict params) := by
    intro types isTypes
    rw [Schema.isObject, Option.mem_def.mp isTypes] at isObject
    split at isObject
    · next isNone => cases isNone
    · next isName =>
        cases isName
        trivial
    · cases isObject
  rw [Schema.asObject, Schema.satisfied_iff, Schema.satisfied_iff]
  refine and_congr_left fun _ => ⟨fun satisfied =>
    { satisfied with type := ofType }, fun satisfied =>
    { satisfied with type := ?_ }⟩
  rintro _ ⟨rfl⟩
  trivial

/-- A cast of cast parameters changes nothing, and neither does one of valid
parameters. Those of a regular schema are valid if they satisfy it. -/
theorem cast_validate_agree (python : ParamText) (schema : Schema)
    (params : List (String × Param)) :
    castParams python schema (castParams python schema (.dict params)) =
        castParams python schema (.dict params) ∧
      (validateParams schema params = some [] →
        castParams python schema (.dict params) = .dict params) ∧
      (schema.isObject = true → schema.asObject.Regular →
        (validateParams schema params = some [] ↔
          schema.Satisfied PyFloat.Never (.dict params))) := by
  cases isObject : schema.isObject with
  | false =>
      have same : ∀ params, castParams python schema params = params := by
        intro params
        rw [castParams, isObject, if_neg nofun]
      exact ⟨by rw [same, same], fun _ => same _, nofun⟩
  | true =>
      rw [castParams_eq isObject, castParams_eq isObject, validateParams,
        if_pos isObject, Option.some_inj]
      refine ⟨castValue_castValue _ _, castValue_of_validate, fun _ regular => ?_⟩
      rw [regular.validate_iff, asObject_satisfied_iff isObject]

/-- A mode that may be null. -/
def modeKeywords : Keywords where
  type := some (.names [.string, .null])
  enum := some [.str "all", .null]

/-- A schema with a list of types, an array and bounds. -/
def searchSchema : Schema :=
  .mk { type := some (.name .object), required := some ["mode"] }
    (some
      [("mode", .mk modeKeywords none none none none),
        ("limits", .mk { type := some (.name .array) } none
          (some (.mk { type := some (.name .integer), minimum := some (.int 1) }
            none none none none)) none none)])
    none none none

theorem Keywords.regular_of_name {keywords : Keywords} {type : TypeName}
    (isType : keywords.type = some (.name type)) (known : type.IsKnown)
    (notNullable : keywords.nullable = false) (noEnum : keywords.enum = none) :
    keywords.Regular := by
  refine ⟨⟨by simp [isType], ?_, by simp [noEnum]⟩, notNullable, by simp [noEnum]⟩
  rw [isType]
  rintro _ ⟨rfl⟩
  exact ⟨type, rfl, known, fun _ => .inr⟩

theorem modeKeywords_regular : modeKeywords.Regular := by
  refine ⟨⟨nofun, ?_, ?_⟩, rfl, ?_⟩
  · rintro _ ⟨rfl⟩
    refine ⟨.string, rfl, ⟨nofun, nofun⟩, ?_⟩
    rintro val ⟨type, member, typed⟩
    obtain rfl | rfl := List.mem_pair.mp member
    · exact .inr typed
    · cases val <;> first | exact .inl rfl | cases typed
  · rintro _ ⟨rfl⟩ value member val _ isEqual
    obtain rfl | rfl := List.mem_pair.mp member
    all_goals cases val <;> exact isEqual
  · rintro _ _ ⟨rfl⟩
    exact List.mem_cons_of_mem _ List.mem_cons_self

theorem searchSchema_regular : searchSchema.asObject.Regular := by
  have object : TypeName.object.IsKnown := by simp [TypeName.IsKnown]
  have array : TypeName.array.IsKnown := by simp [TypeName.IsKnown]
  have integer : TypeName.integer.IsKnown := by simp [TypeName.IsKnown]
  refine .mk (Keywords.regular_of_name rfl object rfl rfl) (by rintro ⟨⟩) ?_
    forall_mem_none
  rintro _ ⟨rfl⟩ prop member
  obtain rfl | rfl := List.mem_pair.mp member
  · exact .mk modeKeywords_regular (by rintro ⟨⟩) forall_mem_none
      forall_mem_none
  · refine .mk (Keywords.regular_of_name rfl array rfl rfl) (by rintro ⟨⟩)
      forall_mem_none ?_
    rintro _ ⟨rfl⟩
    exact .mk (Keywords.regular_of_name rfl integer rfl rfl) (by rintro ⟨⟩)
      forall_mem_none forall_mem_none

/-- Parameters that are null or within their bounds are left as they are and
satisfy the schema. -/
theorem search_agrees (python : ParamText) :
    castParams python searchSchema
        (.dict [("mode", .null), ("limits", .list [.number (.int 3)])]) =
      .dict [("mode", .null), ("limits", .list [.number (.int 3)])] ∧
    searchSchema.Satisfied PyFloat.Never
      (.dict [("mode", .null), ("limits", .list [.number (.int 3)])]) := by
  have agree := cast_validate_agree python searchSchema
    [("mode", .null), ("limits", .list [.number (.int 3)])]
  have valid : validateParams searchSchema
      [("mode", .null), ("limits", .list [.number (.int 3)])] = some [] := by
    rw [validateParams, if_pos (show searchSchema.isObject = true from rfl),
      Option.some_inj, ← List.isEmpty_iff]
    decide +kernel
  exact ⟨agree.2.1 valid, (agree.2.2 rfl searchSchema_regular).mp valid⟩

/-- A schema of a field that is a text or an integer. -/
def answerSchema : Schema :=
  .mk { type := some (.name .object) }
    (some [("answer", .mk { type := some (.names [.string, .integer]) }
      none none none none)])
    none none none

/-- A value of the second type satisfies the schema but is refused. -/
theorem secondType_refused :
    answerSchema.isObject = true ∧
    answerSchema.Satisfied PyFloat.IsWhole
      (.dict [("answer", .number (.int 5))]) ∧
    validateParams answerSchema [("answer", .number (.int 5))] ≠ some [] := by
  refine ⟨rfl, Schema.satisfied_iff.mpr ⟨?_, ?_, nofun, nofun, nofun⟩, ?_⟩
  · refine ⟨?_, nofun, nofun, nofun, nofun, nofun, nofun⟩
    rintro _ ⟨rfl⟩
    trivial
  · rintro _ ⟨rfl⟩ _ ⟨rfl⟩ field member schema isProperty
    obtain rfl := List.mem_singleton.mp member
    cases isProperty
    refine Schema.satisfied_iff.mpr ⟨⟨?_, nofun, nofun, nofun, nofun, nofun, nofun⟩,
      nofun, nofun, nofun, nofun⟩
    rintro _ ⟨rfl⟩
    exact ⟨.integer, by decide, trivial⟩
  · rw [validateParams, if_pos (show answerSchema.isObject = true from rfl)]
    intro valid
    exact absurd (List.isEmpty_iff.mpr (Option.some_inj.mp valid))
      (by decide +kernel)

end AgentSchedBench.Agent
