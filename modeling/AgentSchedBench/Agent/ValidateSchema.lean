import AgentSchedBench.Agent.SchemaMeaning

/-!
# What is valid satisfies the schema

A value that is not null is valid for keywords that the first of their types
stands for if it satisfies them.
-/

namespace AgentSchedBench.Agent

theorem validateProperty_eq (props : List (String × Schema)) (key : String)
    (val : Param) (path : String) :
    validateProperty props key val path =
      match props.lookup key with
      | some schema => validate schema val path
      | none => [] := by
  induction props with
  | nil => rw [validateProperty, List.lookup_nil]
  | cons prop props induction =>
      rw [validateProperty, List.lookup_cons]
      by_cases isKey : prop.1 = key
      · rw [if_pos isKey, beq_iff_eq.mpr isKey.symm]
      · rw [if_neg isKey, beq_eq_false_iff_ne.mpr (Ne.symm isKey)]
        exact induction

/-! ## One step of the validation -/

/-- A value passes if it is null and may be, or if it has the type and passes
the other keywords. -/
theorem validate_eq_nil {keywords : Keywords}
    {properties : Option (List (String × Schema))} {items : Option Schema}
    {oneOf anyOf : Option (List Schema)} {val : Param} {path : String} :
    validate (.mk keywords properties items oneOf anyOf) val path = [] ↔
      keywords.isNullable = true ∧ val.isNull = true ∨
      failsType (resolveType keywords.type) val = false ∧
        keywords.errors val (if path = "" then "parameter" else path) = [] ∧
        (resolveType keywords.type = some .object → ∀ fields,
          val = .dict fields → keywords.missingErrors fields path = [] ∧
          ∀ props ∈ properties, ∀ field ∈ fields,
            validateProperty props field.1 field.2
              (propertyPath path field.1) = []) ∧
        (resolveType keywords.type = some .array → ∀ values,
          val = .list values → ∀ schema ∈ items, ∀ item ∈ values.zipIdx,
            validate schema item.1 (itemPath path item.2) = []) := by
  rw [validate.eq_def]
  dsimp only
  by_cases isNull : keywords.isNullable = true ∧ val.isNull = true
  · rw [if_pos (Bool.and_eq_true_iff.mpr isNull)]
    exact iff_of_true rfl (.inl isNull)
  · rw [if_neg (Bool.and_eq_true_iff.not.mpr isNull), or_iff_right isNull]
    by_cases fails : failsType (resolveType keywords.type) val = true
    · rw [if_pos fails]
      exact iff_of_false (nofun) fun passes => by
        rw [fails] at passes
        cases passes.1
    · rw [if_neg fails, Bool.not_eq_true] at *
      rw [and_iff_right fails, List.append_eq_nil_iff]
      refine and_congr_right fun _ => ?_
      split
      · next isType _ =>
          rw [isType, List.append_eq_nil_iff]
          constructor
          · rintro ⟨noMissing, passes⟩
            refine ⟨?_, nofun⟩
            rintro _ _ ⟨rfl⟩
            refine ⟨noMissing, ?_⟩
            rintro props ⟨rfl⟩
            exact List.flatMap_eq_nil_iff.mp passes
          · rintro ⟨ofObject, _⟩
            obtain ⟨noMissing, passes⟩ := ofObject rfl _ rfl
            refine ⟨noMissing, ?_⟩
            cases properties with
            | none => rfl
            | some props => exact List.flatMap_eq_nil_iff.mpr (passes props rfl)
      · next isType _ =>
          rw [isType]
          constructor
          · intro passes
            refine ⟨nofun, ?_⟩
            rintro _ _ ⟨rfl⟩ schema ⟨rfl⟩
            exact List.flatMap_eq_nil_iff.mp passes
          · rintro ⟨_, ofArray⟩
            cases items with
            | none => rfl
            | some schema =>
                exact List.flatMap_eq_nil_iff.mpr (ofArray rfl _ rfl schema rfl)
      · next noObject noArray _ =>
          refine iff_of_true rfl ⟨fun isType fields isDict => ?_,
            fun isType values isList => ?_⟩
          · exact absurd isDict (noObject fields isType)
          · exact absurd isList (noArray values isType)

/-! ## Keywords of one type -/

/-- The type is one of `_TYPE_MAP`. -/
def TypeName.IsKnown (type : TypeName) : Prop :=
  type ≠ .null ∧ ∀ name, type ≠ .other name

/-- No float is an integer, not even one that is whole. -/
abbrev PyFloat.Never (_ : PyFloat) : Prop := False

theorem failsType_eq_false {type : TypeName} (known : type.IsKnown)
    (val : Param) :
    failsType (some type) val = false ↔ type.Matches PyFloat.Never val := by
  cases type with
  | null => exact absurd rfl known.1
  | other name => exact absurd rfl (known.2 name)
  | integer =>
      cases val with
      | number value =>
          cases value <;>
            simp [failsType, TypeName.isInstance, TypeName.Matches, Param.isBool]
      | _ => simp [failsType, TypeName.isInstance, TypeName.Matches, Param.isBool]
  | _ =>
      cases val <;>
        simp [failsType, TypeName.isInstance, TypeName.Matches, Param.isBool]

namespace Keywords

variable {keywords : Keywords} {type : TypeName} {val : Param}
  {label path : String}

theorem missingErrors_eq_nil {fields : List (String × Param)} :
    keywords.missingErrors fields path = [] ↔
      ∀ keys ∈ keywords.required, ∀ key ∈ keys,
        (fields.lookup key).isSome = true := by
  unfold missingErrors
  cases keywords.required with
  | none => simp
  | some keys => simp [List.flatMap_eq_nil_iff]

/-- A value of the type has no errors if it passes each keyword. -/
theorem errors_eq_nil (isType : resolveType keywords.type = some type)
    (known : type.IsKnown) (typed : type.Matches PyFloat.Never val) :
    keywords.errors val label = [] ↔
      (∀ values ∈ keywords.enum, ∃ value ∈ values, val.eq true value = true) ∧
      (∀ bound ∈ keywords.minimum, ∀ number, val = .number number →
        number.value.lt bound.value = false) ∧
      (∀ bound ∈ keywords.maximum, ∀ number, val = .number number →
        bound.value.lt number.value = false) ∧
      (∀ bound ∈ keywords.minLength, ∀ text, val = .str text →
        bound ≤ (text.length : Int)) ∧
      ∀ bound ∈ keywords.maxLength, ∀ text, val = .str text →
        (text.length : Int) ≤ bound := by
  unfold errors
  rw [List.append_eq_nil_iff, List.append_eq_nil_iff, and_assoc, isType]
  refine and_congr ?_ ?_
  · cases keywords.enum <;> simp
  · cases val with
    | number number =>
        cases type <;> simp [TypeName.Matches, TypeName.IsKnown] at typed known
        all_goals
          cases keywords.minimum <;> cases keywords.maximum <;>
            simp [Param.numeric]
    | str text =>
        cases type <;> simp [TypeName.Matches, TypeName.IsKnown] at typed known
        cases keywords.minLength <;> cases keywords.maxLength <;> simp
    | _ =>
        cases type <;>
          simp [TypeName.Matches, TypeName.IsKnown] at typed known <;> simp

end Keywords

/-! ## Equality -/

mutual

/-- Values that are equal are so if booleans and numbers are compared. -/
theorem Param.eq_of_eq : ∀ left right : Param,
    left.eq false right = true → left.eq true right = true
  | .null, right, isEqual => by
      cases right <;> simp_all [Param.eq]
  | .bool _, right, isEqual => by
      cases right <;> simp_all [Param.eq]
  | .number _, right, isEqual => by
      cases right <;> simp_all [Param.eq]
  | .str _, right, isEqual => by
      cases right <;> simp_all [Param.eq]
  | .list left, right, isEqual => by
      cases right with
      | list right =>
          simp only [Param.eq] at isEqual ⊢
          exact Param.eqItems_of_eqItems left right isEqual
      | _ => simp [Param.eq] at isEqual
  | .dict left, right, isEqual => by
      cases right with
      | dict right =>
          simp only [Param.eq, Bool.and_eq_true] at isEqual ⊢
          exact isEqual.imp_right (Param.eqFields_of_eqFields left right)
      | _ => simp [Param.eq] at isEqual

theorem Param.eqItems_of_eqItems : ∀ lefts rights : List Param,
    Param.eqItems false lefts rights = true →
      Param.eqItems true lefts rights = true
  | [], rights, isEqual => by
      cases rights <;> simp_all [Param.eqItems]
  | left :: lefts, rights, isEqual => by
      cases rights with
      | nil => simp [Param.eqItems] at isEqual
      | cons right rights =>
          simp only [Param.eqItems, Bool.and_eq_true] at isEqual ⊢
          exact isEqual.imp (Param.eq_of_eq left right)
            (Param.eqItems_of_eqItems lefts rights)

theorem Param.eqFields_of_eqFields : ∀ lefts rights : List (String × Param),
    Param.eqFields false lefts rights = true →
      Param.eqFields true lefts rights = true
  | [], _, _ => by simp [Param.eqFields]
  | (name, left) :: lefts, rights, isEqual => by
      simp only [Param.eqFields, Bool.and_eq_true] at isEqual ⊢
      refine isEqual.imp (fun isEqual => ?_)
        (Param.eqFields_of_eqFields lefts rights)
      cases isField : rights.lookup name with
      | none => simp [isField] at isEqual
      | some right =>
          rw [isField] at isEqual
          exact Param.eq_of_eq left right isEqual

end

/-! ## Plain keywords -/

/-- The first type that is not null stands for the others, and no value of the
types is taken for one of an enumeration. -/
structure Keywords.Plain (keywords : Keywords) : Prop where
  untyped : keywords.type = none → keywords.minimum = none ∧
    keywords.maximum = none ∧ keywords.minLength = none ∧
    keywords.maxLength = none ∧ keywords.required = none
  typed : ∀ types ∈ keywords.type, ∃ type, resolveType (some types) = some type ∧
    type.IsKnown ∧ ∀ val, types.Matches PyFloat.Never val →
      val.isNull = true ∨ type.Matches PyFloat.Never val
  unmixed : ∀ values ∈ keywords.enum, ∀ value ∈ values, ∀ val,
    (∀ types ∈ keywords.type, types.Matches PyFloat.Never val) →
      val.eq true value = true → val.eq false value = true

theorem matches_of_resolveType {types : SchemaType} {type : TypeName}
    {val : Param} (isType : resolveType (some types) = some type)
    (typed : type.Matches PyFloat.Never val) :
    types.Matches PyFloat.Never val := by
  cases types with
  | name first =>
      cases isType
      exact typed
  | names types => exact ⟨type, List.mem_of_find?_eq_some isType, typed⟩

theorem TypeName.IsKnown.not_matches_null {type : TypeName}
    (known : type.IsKnown) : ¬type.Matches PyFloat.Never .null := by
  cases type <;> simp_all [TypeName.Matches, TypeName.IsKnown]

namespace Keywords.Plain

variable {keywords : Keywords} (plain : keywords.Plain) {val : Param}
  {label path : String}

include plain

/-- Without a type there is no keyword but an enumeration. -/
theorem satisfied_iff_of_untyped (isType : keywords.type = none) :
    keywords.Satisfied PyFloat.Never val ↔ keywords.errors val label = [] := by
  obtain ⟨noMinimum, noMaximum, noMinLength, noMaxLength, noRequired⟩ :=
    plain.untyped isType
  have passes : keywords.errors val label = [] ↔
      ∀ values ∈ keywords.enum, ∃ value ∈ values, val.eq true value = true := by
    unfold Keywords.errors
    rw [isType]
    cases keywords.enum <;> simp [resolveType]
  rw [passes]
  constructor
  · intro satisfied values isEnum
    obtain ⟨value, member, isEqual⟩ := satisfied.enum values isEnum
    exact ⟨value, member, Param.eq_of_eq _ _ isEqual⟩
  · intro passes
    refine ⟨by simp [isType], fun values isEnum => ?_, by simp [noMinimum],
      by simp [noMaximum], by simp [noMinLength], by simp [noMaxLength],
      by simp [noRequired]⟩
    obtain ⟨value, member, isEqual⟩ := passes values isEnum
    exact ⟨value, member, plain.unmixed values isEnum value member val
      (by simp [isType]) isEqual⟩

/-- The keywords are satisfied by the values that pass them, if null is none of
their types. -/
theorem satisfied_iff (notNull : ∀ types ∈ keywords.type,
      types.Matches PyFloat.Never val → val.isNull = false) :
    keywords.Satisfied PyFloat.Never val ↔
      failsType (resolveType keywords.type) val = false ∧
        keywords.errors val label = [] ∧
        (resolveType keywords.type = some .object → ∀ fields,
          val = .dict fields → keywords.missingErrors fields path = []) := by
  cases isTypes : keywords.type with
  | none =>
      have passes : keywords.Satisfied PyFloat.Never val ↔
          keywords.errors val label = [] := plain.satisfied_iff_of_untyped isTypes
      rw [passes]
      exact ⟨fun passes => ⟨rfl, passes, nofun⟩, fun passes => passes.2.1⟩
  | some types =>
      obtain ⟨type, isType, known, first⟩ := plain.typed types isTypes
      rw [isType, failsType_eq_false known]
      constructor
      · intro satisfied
        have typed := satisfied.type types isTypes
        have typed := (first val typed).resolve_left
          (Bool.eq_false_iff.mp (notNull types isTypes typed))
        refine ⟨typed, (Keywords.errors_eq_nil (isTypes ▸ isType) known
          typed).mpr ⟨fun values isEnum => ?_, satisfied.minimum,
            satisfied.maximum, satisfied.minLength, satisfied.maxLength⟩, ?_⟩
        · obtain ⟨value, member, isEqual⟩ := satisfied.enum values isEnum
          exact ⟨value, member, Param.eq_of_eq _ _ isEqual⟩
        · exact fun _ fields isDict => Keywords.missingErrors_eq_nil.mpr
            fun keys isRequired => satisfied.required keys isRequired fields isDict
      · rintro ⟨typed, passes, noMissing⟩
        obtain ⟨enum, minimum, maximum, minLength, maxLength⟩ :=
          (Keywords.errors_eq_nil (isTypes ▸ isType) known typed).mp passes
        have typedAs : ∀ types ∈ keywords.type,
            types.Matches PyFloat.Never val := by
          rw [isTypes]
          rintro _ ⟨rfl⟩
          exact matches_of_resolveType isType typed
        refine ⟨typedAs, fun values isEnum => ?_, minimum, maximum, minLength,
          maxLength, fun keys isRequired fields isDict => ?_⟩
        · obtain ⟨value, member, isEqual⟩ := enum values isEnum
          exact ⟨value, member,
            plain.unmixed values isEnum value member val typedAs isEqual⟩
        · have isObject : type = .object := by
            rw [isDict] at typed
            cases type <;> first | rfl | cases typed
          exact Keywords.missingErrors_eq_nil.mp
            (noMissing (congrArg some isObject) fields isDict) keys isRequired

/-- A dictionary that has the type, if there is one, has that of objects. -/
theorem resolveType_of_dict {fields : List (String × Param)}
    (hasType : keywords.type ≠ none)
    (passes : failsType (resolveType keywords.type) (.dict fields) = false) :
    resolveType keywords.type = some .object := by
  obtain ⟨types, isTypes⟩ := Option.ne_none_iff_exists'.mp hasType
  obtain ⟨type, isType, known, _⟩ := plain.typed types isTypes
  rw [isTypes, isType] at passes ⊢
  have typed := (failsType_eq_false known _).mp passes
  cases type <;> first | rfl | cases typed

/-- A list that has the type, if there is one, has that of arrays. -/
theorem resolveType_of_list {values : List Param}
    (hasType : keywords.type ≠ none)
    (passes : failsType (resolveType keywords.type) (.list values) = false) :
    resolveType keywords.type = some .array := by
  obtain ⟨types, isTypes⟩ := Option.ne_none_iff_exists'.mp hasType
  obtain ⟨type, isType, known, _⟩ := plain.typed types isTypes
  rw [isTypes, isType] at passes ⊢
  have typed := (failsType_eq_false known _).mp passes
  cases type <;> first | rfl | cases typed

end Keywords.Plain

/-- A value is valid if it satisfies the keywords and the parts of it are valid,
if it is not passed for being null. -/
theorem validate_iff_of_plain {keywords : Keywords}
    {properties : Option (List (String × Schema))} {items : Option Schema}
    {oneOf anyOf : Option (List Schema)} {val : Param} {path : String}
    (plain : keywords.Plain)
    (untyped : keywords.type = none → properties = none ∧ items = none)
    (notPassed : ¬(keywords.isNullable = true ∧ val.isNull = true))
    (notNull : ∀ types ∈ keywords.type, types.Matches PyFloat.Never val →
      val.isNull = false) :
    validate (.mk keywords properties items oneOf anyOf) val path = [] ↔
      keywords.Satisfied PyFloat.Never val ∧
      (∀ props ∈ properties, ∀ fields, val = .dict fields → ∀ field ∈ fields,
        ∀ schema ∈ props.lookup field.1,
          validate schema field.2 (propertyPath path field.1) = []) ∧
      ∀ schema ∈ items, ∀ values, val = .list values → ∀ item ∈ values.zipIdx,
        validate schema item.1 (itemPath path item.2) = [] := by
  rw [validate_eq_nil, or_iff_right notPassed, plain.satisfied_iff notNull]
  constructor
  · rintro ⟨hasType, passes, ofObject, ofArray⟩
    refine ⟨⟨hasType, passes, fun isObject fields isDict =>
      (ofObject isObject fields isDict).1⟩, ?_, ?_⟩
    · rintro props isProperties fields rfl field member schema isProperty
      have isObject := plain.resolveType_of_dict
        (fun isType => by simp [(untyped isType).1] at isProperties) hasType
      have valid := (ofObject isObject fields rfl).2 props isProperties field member
      rwa [validateProperty_eq, Option.mem_def.mp isProperty] at valid
    · rintro schema isItems values rfl
      have isArray := plain.resolveType_of_list
        (fun isType => by simp [(untyped isType).2] at isItems) hasType
      exact ofArray isArray values rfl schema isItems
  · rintro ⟨⟨hasType, passes, noMissing⟩, ofField, ofItem⟩
    refine ⟨hasType, passes, fun isObject fields isDict =>
      ⟨noMissing isObject fields isDict, fun props isProperties field member => ?_⟩,
      fun _ values isList schema isItems => ofItem schema isItems values isList⟩
    rw [validateProperty_eq]
    cases isProperty : props.lookup field.1 with
    | none => rfl
    | some schema =>
        exact ofField props isProperties fields isDict field member schema
          isProperty

/-- What holds of each item with its index holds of each item. -/
theorem forall_mem_zipIdx {values : List Param} {motive : Param → Prop} :
    (∀ item ∈ values.zipIdx, motive item.1) ↔ ∀ item ∈ values, motive item := by
  rw [← List.forall_mem_map (f := Prod.fst), List.zipIdx_map_fst]

end AgentSchedBench.Agent
