import AgentSchedBench.Agent.CastParams
import AgentSchedBench.Agent.NormalizeSchema

/-!
# A normalised schema means the same

What is valid under a normalised schema satisfies the schema, if the branch of
each union allows no value that the keywords beside the union forbid. The
validation reads no union, so a branch holds none itself.
-/

namespace AgentSchedBench.Agent

/-! ## Named types -/

theorem besidesNull_eq_some {types : SchemaType} {type : TypeName}
    (besides : types.besidesNull = some type) :
    ∃ names, types = .names names ∧ .null ∈ names ∧ type ∈ names ∧
      ∀ other ∈ names, other ≠ .null → other = type := by
  cases types with
  | name _ => cases besides
  | names names =>
      rw [SchemaType.besidesNull] at besides
      split at besides
      · next first isFilter =>
          split at besides
          · next hasNull =>
              cases besides
              have inFilter : ∀ other, other ∈ names ∧ other ≠ .null ↔
                  other = type := by
                intro other
                rw [← List.mem_singleton, ← isFilter, List.mem_filter,
                  decide_eq_true_iff]
              exact ⟨names, rfl, hasNull, ((inFilter type).mpr rfl).1,
                fun other member notNull => (inFilter other).mp ⟨member, notNull⟩⟩
          · cases besides
      · cases besides

namespace Keywords

/-- The types are left as they are, or they are null and the type named. -/
theorem nameType_cases (keywords : Keywords) :
    keywords.nameType = keywords ∨
      ∃ names type, keywords.type = some (.names names) ∧ .null ∈ names ∧
        type ∈ names ∧ (∀ other ∈ names, other ≠ .null → other = type) ∧
        keywords.nameType =
          { keywords with type := some (.name type), nullable := true } := by
  cases besides : keywords.type.bind SchemaType.besidesNull with
  | none =>
      left
      rw [nameType, besides]
  | some type =>
      obtain ⟨types, isTypes, besidesType⟩ := Option.bind_eq_some_iff.mp besides
      obtain ⟨names, rfl, hasNull, hasType, others⟩ := besidesNull_eq_some besidesType
      refine .inr ⟨names, type, isTypes, hasNull, hasType, others, ?_⟩
      rw [nameType, besides]

theorem nameType_of_besidesNull {keywords : Keywords}
    (besides : keywords.type.bind SchemaType.besidesNull = none) :
    keywords.nameType = keywords := by
  rw [nameType, besides]

theorem besidesNull_nameType (keywords : Keywords) :
    keywords.nameType.type.bind SchemaType.besidesNull = none := by
  cases besides : keywords.type.bind SchemaType.besidesNull with
  | none => rwa [nameType_of_besidesNull besides]
  | some type =>
      rw [nameType, besides]
      rfl

theorem isNullable_of_mem {keywords : Keywords} {names : List TypeName}
    (isType : keywords.type = some (.names names)) (hasNull : .null ∈ names) :
    keywords.isNullable = true := by
  simp [isNullable, isType, hasNull]

theorem isNullable_nameType (keywords : Keywords) :
    keywords.nameType.isNullable = keywords.isNullable := by
  obtain same | ⟨names, type, isType, hasNull, _, _, same⟩ := keywords.nameType_cases
  · rw [same]
  · rw [same, isNullable_of_mem isType hasNull, isNullable, Bool.or_true]

/-- A value that is not null matches the type that is named if it matches one of
the list. -/
theorem nameType_matches_iff {keywords : Keywords} {val : Param}
    (notPassed : ¬(keywords.isNullable = true ∧ val.isNull = true)) :
    (∀ types ∈ keywords.nameType.type, types.Matches PyFloat.Never val) ↔
      ∀ types ∈ keywords.type, types.Matches PyFloat.Never val := by
  obtain same | ⟨names, type, isType, hasNull, hasType, others, same⟩ :=
    keywords.nameType_cases
  · rw [same]
  · have isNullable := isNullable_of_mem isType hasNull
    rw [same, isType]
    constructor
    · rintro typed _ ⟨rfl⟩
      exact ⟨type, hasType, typed _ rfl⟩
    · rintro typed _ ⟨rfl⟩
      obtain ⟨other, member, matchesOther⟩ := typed _ rfl
      by_cases isNull : other = .null
      · subst isNull
        cases val with
        | null => exact absurd ⟨isNullable, rfl⟩ notPassed
        | _ => cases matchesOther
      · rwa [← others other member isNull]

theorem nameType_satisfied_iff {keywords : Keywords} {val : Param}
    (notPassed : ¬(keywords.isNullable = true ∧ val.isNull = true)) :
    keywords.nameType.Satisfied PyFloat.Never val ↔
      keywords.Satisfied PyFloat.Never val := by
  have typed := nameType_matches_iff notPassed
  obtain same | ⟨names, type, _, _, _, _, same⟩ := keywords.nameType_cases
  · rw [same]
  · rw [same] at typed ⊢
    exact ⟨fun satisfied => { satisfied with type := typed.mp satisfied.type },
      fun satisfied => { satisfied with type := typed.mpr satisfied.type }⟩

theorem Plain.nameType {keywords : Keywords} (plain : keywords.Plain) :
    keywords.nameType.Plain := by
  obtain same | ⟨names, type, isType, _, hasType, others, same⟩ :=
    keywords.nameType_cases
  · rwa [same]
  · obtain ⟨first, isFirst, known, _⟩ := plain.typed _ isType
    have notNull : first ≠ .null := known.1
    obtain rfl := others first (List.mem_of_find?_eq_some isFirst) notNull
    rw [same]
    refine ⟨nofun, ?_, fun values isEnum value member val typed => ?_⟩
    · rintro _ ⟨rfl⟩
      exact ⟨first, rfl, known, fun _ => .inr⟩
    · refine plain.unmixed values isEnum value member val ?_
      rw [isType]
      rintro _ ⟨rfl⟩
      exact ⟨first, hasType, typed _ rfl⟩

theorem type_of_nameType {keywords : Keywords}
    (isType : keywords.nameType.type = none) : keywords.type = none := by
  obtain same | ⟨_, _, _, _, _, _, same⟩ := keywords.nameType_cases
  · rwa [same] at isType
  · rw [same] at isType
    cases isType

theorem notNull_nameType {keywords : Keywords} {val : Param}
    (notPassed : ¬(keywords.isNullable = true ∧ val.isNull = true))
    (notNull : ∀ types ∈ keywords.type, types.Matches PyFloat.Never val →
      val.isNull = false) :
    ∀ types ∈ keywords.nameType.type, types.Matches PyFloat.Never val →
      val.isNull = false := by
  obtain same | ⟨_, _, isType, hasNull, _⟩ := keywords.nameType_cases
  · rwa [same]
  · exact fun _ _ _ => Bool.eq_false_iff.mpr fun isNull =>
      notPassed ⟨isNullable_of_mem isType hasNull, isNull⟩

/-! ## Merged keywords -/

/-- A value that satisfies the keywords and those of the branch satisfies what
they are merged to. -/
theorem Satisfied.update {merged branch : Keywords} {val : Param}
    (ofMerged : merged.Satisfied PyFloat.Never val)
    (ofBranch : branch.Satisfied PyFloat.Never val) :
    (merged.update branch).Satisfied PyFloat.Never val := by
  have either {α : Type} {motive : α → Prop} {ofBranch ofMerged : Option α}
      (branch : ∀ value ∈ ofBranch, motive value)
      (merged : ∀ value ∈ ofMerged, motive value) :
      ∀ value ∈ ofBranch.or ofMerged, motive value := by
    cases ofBranch with
    | none => exact merged
    | some value => exact branch
  exact
    { type := either ofBranch.type ofMerged.type
      enum := either ofBranch.enum ofMerged.enum
      minimum := either ofBranch.minimum ofMerged.minimum
      maximum := either ofBranch.maximum ofMerged.maximum
      minLength := either ofBranch.minLength ofMerged.minLength
      maxLength := either ofBranch.maxLength ofMerged.maxLength
      required := either ofBranch.required ofMerged.required }

/-- A value that satisfies the merged keywords satisfies those of the branch. -/
theorem Satisfied.of_update {merged branch : Keywords} {val : Param}
    (satisfied : (merged.update branch).Satisfied PyFloat.Never val) :
    branch.Satisfied PyFloat.Never val := by
  have ofOr {α : Type} {motive : α → Prop} {ofBranch ofMerged : Option α}
      (all : ∀ value ∈ ofBranch.or ofMerged, motive value) :
      ∀ value ∈ ofBranch, motive value := by
    rintro value ⟨rfl⟩
    exact all value rfl
  exact
    { type := ofOr satisfied.type
      enum := ofOr satisfied.enum
      minimum := ofOr satisfied.minimum
      maximum := ofOr satisfied.maximum
      minLength := ofOr satisfied.minLength
      maxLength := ofOr satisfied.maxLength
      required := ofOr satisfied.required }

/-- The keywords of the branch allow no value that those beside the union
forbid, and these allow null. -/
structure MergesOver (keywords branch : Keywords) : Prop where
  plain : (keywords.nameType.update branch).Plain
  null : keywords.Satisfied PyFloat.Never .null
  implies : ∀ val, val.isNull = false →
    (keywords.nameType.update branch).Satisfied PyFloat.Never val →
      keywords.Satisfied PyFloat.Never val

end Keywords

/-! ## Defaults -/

/-- What is valid is so with the defaults of a schema of objects. -/
theorem validate_setDefaults (schema : Schema) (val : Param) (path : String) :
    validate schema.setDefaults val path = [] ↔ validate schema val path = [] := by
  obtain ⟨keywords, properties, items, oneOf, anyOf⟩ := schema
  rw [Schema.setDefaults]
  split
  · rw [validate_eq_nil, validate_eq_nil]
    cases properties with
    | some props => rfl
    | none =>
        refine or_congr_right (and_congr_right fun _ => and_congr_right fun _ =>
          and_congr_left fun _ => forall₃_congr fun _ fields _ =>
            and_congr_right fun _ => iff_of_true ?_ nofun)
        rintro _ ⟨rfl⟩ field _
        exact validateProperty_eq ..
  · rfl

/-! ## Nullable unions -/

/-- `{"type": "null"}` -/
def nullSchema : Schema :=
  .mk { type := some (.name .null) } none none none none

theorem nullSchema_satisfied_iff {val : Param} :
    nullSchema.Satisfied PyFloat.Never val ↔ val.isNull = true := by
  constructor
  · intro satisfied
    have isNull := (Schema.satisfied_iff.mp satisfied).1.type _ rfl
    cases val with
    | null => rfl
    | _ => cases isNull
  · intro isNull
    cases val with
    | null =>
        refine Schema.satisfied_iff.mpr ⟨⟨?_, nofun, nofun, nofun, nofun, nofun,
          nofun⟩, nofun, nofun, nofun, nofun⟩
        rintro _ ⟨rfl⟩
        trivial
    | _ => cases isNull

/-- The options are null and the branch. -/
def IsNullable (branch : Schema) (options : List Schema) : Prop :=
  options = [nullSchema, branch] ∨ options = [branch, nullSchema]

namespace IsNullable

variable {branch : Schema} {options : List Schema} {val : Param}
  (nullable : IsNullable branch options)

include nullable

theorem extractNullableBranch_eq (notNull : branch.isNull = false) :
    extractNullableBranch options = some branch := by
  have isNull : nullSchema.isNull = true := rfl
  obtain rfl | rfl := nullable <;>
    simp [extractNullableBranch, isNull, notNull]

theorem someSatisfied_iff :
    SomeSatisfied PyFloat.Never options val ↔
      val.isNull = true ∨ branch.Satisfied PyFloat.Never val := by
  obtain rfl | rfl := nullable
  · simp [SomeSatisfied, nullSchema_satisfied_iff]
  · simp [SomeSatisfied, nullSchema_satisfied_iff, or_comm]

theorem oneSatisfied_iff :
    OneSatisfied PyFloat.Never options val ↔
      (val.isNull = true ↔ ¬branch.Satisfied PyFloat.Never val) := by
  obtain rfl | rfl := nullable
  all_goals
    by_cases isNull : val.isNull = true <;>
      by_cases satisfied : branch.Satisfied PyFloat.Never val <;>
        simp [OneSatisfied, SomeSatisfied, nullSchema_satisfied_iff, isNull,
          satisfied]

end IsNullable

/-- Each part of the schema is regular or a nullable union, whose branch merges
over the keywords beside it; is a branch `listed` that has a type listed with
null? -/
inductive Schema.Mergeable (listed : Bool) : Schema → Prop
  | regular {keywords : Keywords} {properties : Option (List (String × Schema))}
      {items : Option Schema} (ofKeywords : keywords.Regular)
      (untyped : keywords.type = none → properties = none ∧ items = none)
      (ofProperties : ∀ props ∈ properties, ∀ prop ∈ props,
        Mergeable listed prop.2)
      (ofItems : ∀ schema ∈ items, Mergeable listed schema) :
      Mergeable listed (.mk keywords properties items none none)
  | union {keywords branch : Keywords}
      {properties properties' : Option (List (String × Schema))}
      {items items' : Option Schema} {options : List Schema}
      {oneOf anyOf : Option (List Schema)}
      (nullable : IsNullable (.mk branch properties' items' none none) options)
      (isUnion : oneOf = some options ∧ anyOf = none ∧
          ¬branch.Satisfied PyFloat.Never .null ∨
        oneOf = none ∧ anyOf = some options)
      (merges : keywords.MergesOver branch)
      (untyped : (keywords.nameType.update branch).type = none →
        properties'.or properties = none ∧ items'.or items = none)
      (sameProperties : ∀ props ∈ properties, ∀ props' ∈ properties',
        props = props')
      (sameItems : ∀ schema ∈ items, ∀ schema' ∈ items', schema = schema')
      (named : listed = false →
        branch.type.bind SchemaType.besidesNull = none)
      (ofProperties : ∀ props ∈ properties'.or properties, ∀ prop ∈ props,
        Mergeable listed prop.2)
      (ofItems : ∀ schema ∈ items'.or items, Mergeable listed schema) :
      Mergeable listed (.mk keywords properties items oneOf anyOf)

/-! ## Meaning -/

theorem lookup_map {props : List (String × Schema)} {change : Schema → Schema}
    (key : String) :
    (props.map fun prop => (prop.1, change prop.2)).lookup key =
      (props.lookup key).map change := by
  induction props with
  | nil => rfl
  | cons prop props induction =>
      rw [List.map_cons, List.lookup_cons, List.lookup_cons, induction]
      cases key == prop.1 <;> rfl

/-- What is valid with the properties and items normalised satisfies the schema,
if this is so of each of them. -/
theorem validate_mapParts_iff {keywords : Keywords}
    {properties : Option (List (String × Schema))} {items : Option Schema}
    {val : Param} {path : String} (plain : keywords.Plain)
    (untyped : keywords.type = none → properties = none ∧ items = none)
    (notPassed : ¬(keywords.isNullable = true ∧ val.isNull = true))
    (notNull : ∀ types ∈ keywords.type, types.Matches PyFloat.Never val →
      val.isNull = false)
    (ofProperties : ∀ props ∈ properties, ∀ prop ∈ props, ∀ {val path},
      validate (normalizeSchema prop.2) val path = [] ↔
        prop.2.Satisfied PyFloat.Never val)
    (ofItems : ∀ schema ∈ items, ∀ {val path},
      validate (normalizeSchema schema) val path = [] ↔
        schema.Satisfied PyFloat.Never val) :
    validate ((Schema.mk keywords properties items none none).mapParts
        normalizeSchema).setDefaults val path = [] ↔
      (Schema.mk keywords properties items none none).Satisfied PyFloat.Never
        val := by
  rw [validate_setDefaults, Schema.mapParts, validate_iff_of_plain plain
    (fun isType => by simp [untyped isType]) notPassed notNull, Schema.satisfied_iff]
  refine and_congr_right fun _ => and_congr ?_ ?_
  · cases properties with
    | none => exact iff_of_true forall_mem_none forall_mem_none
    | some props =>
        simp only [Option.map_some, Option.mem_def, Option.some_inj, forall_eq',
          lookup_map]
        refine forall₄_congr fun fields _ field _ => ?_
        cases isProperty : props.lookup field.1 with
        | none => exact iff_of_true forall_mem_none forall_mem_none
        | some schema =>
            simp only [Option.map_some, Option.some_inj, forall_eq']
            exact ofProperties props rfl _ (mem_of_lookup isProperty)
  · refine Iff.trans ?_ (and_iff_left ⟨forall_mem_none, forall_mem_none⟩).symm
    cases items with
    | none => exact iff_of_true forall_mem_none forall_mem_none
    | some schema =>
        simp only [Option.map_some, Option.mem_def, Option.some_inj, forall_eq',
          ofItems schema rfl]
        exact forall₂_congr fun values _ => forall_mem_zipIdx

theorem forall_mem_or_iff {α : Type} {motive : α → Prop} {branch beside : Option α}
    (same : ∀ value ∈ beside, ∀ value' ∈ branch, value = value') :
    (∀ value ∈ branch.or beside, motive value) ↔
      (∀ value ∈ beside, motive value) ∧ ∀ value ∈ branch, motive value := by
  cases branch with
  | none => exact (and_iff_left nofun).symm
  | some value =>
      refine ⟨fun all => ⟨fun value' member => ?_, all⟩, fun all => all.2⟩
      rw [same value' member value rfl]
      exact all value rfl

/-- A nullable union is merged with what stands beside it. -/
theorem normalizeSchema_union {keywords branch : Keywords}
    {properties properties' : Option (List (String × Schema))}
    {items items' : Option Schema} {options : List Schema}
    {oneOf anyOf : Option (List Schema)}
    (nullable : IsNullable (.mk branch properties' items' none none) options)
    (isUnion : oneOf = some options ∧ anyOf = none ∨
      oneOf = none ∧ anyOf = some options)
    (plain : (keywords.nameType.update branch).Plain) :
    normalizeSchema (.mk keywords properties items oneOf anyOf) =
      ((Schema.mk (keywords.nameType.update branch) (properties'.or properties)
        (items'.or items) none none).mapParts normalizeSchema).setDefaults := by
  have notNull : (Schema.mk branch properties' items' none none).isNull = false := by
    refine Bool.eq_false_iff.mpr fun isNull => ?_
    have isType : branch.type = some (.name .null) := beq_iff_eq.mp isNull
    obtain ⟨type, isType, known, _⟩ := plain.typed (.name .null) (by
      rw [Keywords.update, isType]
      rfl)
    cases isType
    exact known.1 rfl
  have isBranch := nullable.extractNullableBranch_eq notNull
  rw [normalizeSchema_eq]
  obtain ⟨rfl, rfl⟩ | ⟨rfl, rfl⟩ := isUnion
  · rw [Option.bind_some, isBranch]
    rfl
  · rw [Option.bind_some, isBranch]
    rfl

/-- What is valid under a normalised schema satisfies the schema. -/
theorem Schema.Mergeable.validate_iff {listed : Bool} {schema : Schema}
    (mergeable : schema.Mergeable listed) {val : Param} {path : String} :
    validate (normalizeSchema schema) val path = [] ↔
      schema.Satisfied PyFloat.Never val := by
  induction mergeable generalizing val path with
  | @regular keywords properties items ofKeywords untyped _ _ ofProperties ofItems =>
      rw [normalizeSchema_eq]
      change validate ((Schema.mk keywords.nameType properties items none
        none).mapParts normalizeSchema).setDefaults val path = [] ↔ _
      by_cases isNull : keywords.isNullable = true ∧ val.isNull = true
      · have isNullable : keywords.nameType.isNullable = true := by
          rw [Keywords.isNullable_nameType, isNull.1]
        refine iff_of_true ((validate_setDefaults ..).mpr
          (validate_eq_nil.mpr (.inl ⟨isNullable, isNull.2⟩))) ?_
        cases val with
        | null =>
            exact Schema.satisfied_iff.mpr
              ⟨ofKeywords.satisfied_null isNull.1, nofun, nofun, nofun, nofun⟩
        | _ => cases isNull.2
      · rw [validate_mapParts_iff ofKeywords.toPlain.nameType
          (fun isType => untyped (Keywords.type_of_nameType isType))
          (by rwa [Keywords.isNullable_nameType])
          (Keywords.notNull_nameType isNull (ofKeywords.notNull isNull))
          ofProperties ofItems, Schema.satisfied_iff, Schema.satisfied_iff,
          Keywords.nameType_satisfied_iff isNull]
  | @union keywords branch properties properties' items items' options oneOf anyOf
      nullable isUnion merges untyped sameProperties sameItems _ _ _ ofProperties
      ofItems =>
      rw [normalizeSchema_union nullable (isUnion.imp_left fun ⟨one, any, _⟩ =>
        ⟨one, any⟩) merges.plain]
      cases isNull : val.isNull with
      | true =>
          have isNullable : (keywords.nameType.update branch).isNullable = true :=
            Bool.or_true _
          refine iff_of_true ((validate_setDefaults ..).mpr
            (validate_eq_nil.mpr (.inl ⟨isNullable, isNull⟩))) ?_
          cases val with
          | null =>
              refine Schema.satisfied_iff.mpr ⟨merges.null, nofun, nofun, ?_⟩
              obtain ⟨rfl, rfl, notBranch⟩ | ⟨rfl, rfl⟩ := isUnion
              · refine ⟨?_, nofun⟩
                rintro _ ⟨rfl⟩
                exact nullable.oneSatisfied_iff.mpr (iff_of_true rfl fun satisfied =>
                  notBranch (Schema.satisfied_iff.mp satisfied).1)
              · refine ⟨nofun, ?_⟩
                rintro _ ⟨rfl⟩
                exact nullable.someSatisfied_iff.mpr (.inl rfl)
          | _ => cases isNull
      | false =>
          have notPassed (isNullable : Bool) :
              ¬(isNullable = true ∧ val.isNull = true) := by
            rw [isNull]
            exact fun passed => nomatch passed.2
          have ofUnion : ((∀ options ∈ oneOf, OneSatisfied PyFloat.Never options val) ∧
              ∀ options ∈ anyOf, SomeSatisfied PyFloat.Never options val) ↔
              (Schema.mk branch properties' items' none none).Satisfied
                PyFloat.Never val := by
            obtain ⟨rfl, rfl, _⟩ | ⟨rfl, rfl⟩ := isUnion
            · simp [nullable.oneSatisfied_iff, isNull]
            · simp [nullable.someSatisfied_iff, isNull]
          rw [validate_mapParts_iff merges.plain untyped (notPassed _)
            (fun _ _ _ => isNull) ofProperties ofItems, Schema.satisfied_iff,
            Schema.satisfied_iff, ofUnion, Schema.satisfied_iff,
            forall_mem_or_iff sameProperties, forall_mem_or_iff sameItems]
          constructor
          · rintro ⟨merged, ⟨fields, fields'⟩, ⟨listItems, listItems'⟩, _⟩
            exact ⟨merges.implies val isNull merged, fields, listItems,
              merged.of_update, fields', listItems', nofun, nofun⟩
          · rintro ⟨beside, fields, listItems, ofBranch, fields', listItems', _⟩
            have named := (Keywords.nameType_satisfied_iff (notPassed _)).mpr beside
            exact ⟨named.update ofBranch, ⟨fields, fields'⟩,
              ⟨listItems, listItems'⟩, nofun, nofun⟩

/-! ## Normalised schemas -/

/-- A schema without unions and lists with null is left as it is, if its
properties and items are. -/
theorem normalizeSchema_mapParts {keywords : Keywords}
    {properties : Option (List (String × Schema))} {items : Option Schema}
    (named : keywords.type.bind SchemaType.besidesNull = none)
    (ofProperties : ∀ props ∈ properties, ∀ prop ∈ props,
      normalizeSchema (normalizeSchema prop.2) = normalizeSchema prop.2)
    (ofItems : ∀ schema ∈ items,
      normalizeSchema (normalizeSchema schema) = normalizeSchema schema) :
    normalizeSchema ((Schema.mk keywords properties items none none).mapParts
        normalizeSchema).setDefaults =
      ((Schema.mk keywords properties items none none).mapParts
        normalizeSchema).setDefaults := by
  have propsAgain : ∀ props ∈ properties.map fun props =>
        props.map fun prop => (prop.1, normalizeSchema prop.2),
      (props.map fun prop => (prop.1, normalizeSchema prop.2)) = props := by
    intro _ isMapped
    obtain ⟨props, isProperties, rfl⟩ := Option.map_eq_some_iff.mp isMapped
    rw [List.map_map]
    exact List.map_congr_left fun prop member =>
      Prod.ext rfl (ofProperties props isProperties prop member)
  have itemsAgain : (items.map normalizeSchema).map normalizeSchema =
      items.map normalizeSchema := by
    cases items with
    | none => rfl
    | some schema => exact congrArg some (ofItems schema rfl)
  have same : ∀ required, ({ keywords with required } : Keywords).nameType =
      { keywords with required } :=
    fun required => Keywords.nameType_of_besidesNull named
  rw [Schema.mapParts]
  generalize properties.map (fun props =>
    props.map fun prop => (prop.1, normalizeSchema prop.2)) = properties at *
  generalize items.map normalizeSchema = items at *
  rw [Schema.setDefaults]
  split
  · next isObject =>
      rw [normalizeSchema_eq, same]
      have propsAgain : (properties.getD []).map
          (fun prop => (prop.1, normalizeSchema prop.2)) = properties.getD [] := by
        cases properties with
        | none => rfl
        | some props => exact propsAgain props rfl
      change (Schema.mk _ (some ((properties.getD []).map _))
        (items.map normalizeSchema) none none).setDefaults = _
      rw [propsAgain, itemsAgain, Schema.setDefaults, if_pos isObject]
      rfl
  · next notObject =>
      rw [normalizeSchema_eq, Keywords.nameType_of_besidesNull named]
      have propsAgain : properties.map (fun props =>
          props.map fun prop => (prop.1, normalizeSchema prop.2)) = properties := by
        cases properties with
        | none => rfl
        | some props => exact congrArg some (propsAgain props rfl)
      change (Schema.mk keywords (properties.map _) (items.map normalizeSchema)
        none none).setDefaults = _
      rw [propsAgain, itemsAgain, Schema.setDefaults, if_neg notObject]

/-- What is normalised is left as it is by another normalisation, if no branch of
a union lists its type with null. -/
theorem Schema.Mergeable.normalizeSchema_normalizeSchema {schema : Schema}
    (mergeable : schema.Mergeable false) :
    normalizeSchema (normalizeSchema schema) = normalizeSchema schema := by
  induction mergeable with
  | @regular keywords properties items _ _ _ _ ofProperties ofItems =>
      rw [normalizeSchema_eq]
      exact normalizeSchema_mapParts keywords.besidesNull_nameType ofProperties
        ofItems
  | @union keywords branch properties properties' items items' options oneOf anyOf
      nullable isUnion merges _ _ _ named _ _ ofProperties ofItems =>
      rw [normalizeSchema_union nullable (isUnion.imp_left fun ⟨one, any, _⟩ =>
        ⟨one, any⟩) merges.plain]
      refine normalizeSchema_mapParts ?_ ofProperties ofItems
      rw [Keywords.update]
      cases isType : branch.type with
      | none => exact keywords.besidesNull_nameType
      | some types =>
          rw [← named rfl, isType]
          rfl

/-! ## Parameters of a call -/

/-- The type of the schema is named, if it has one. -/
def Schema.IsNamed : Schema → Prop
  | .mk keywords _ _ _ _ => ∀ types ∈ keywords.type, ∃ type, types = .name type

/-- A mergeable schema is normalised to one of plain keywords without a union. -/
theorem Schema.Mergeable.normalizeSchema_eq_mapParts {listed : Bool} {schema : Schema}
    (mergeable : schema.Mergeable listed) :
    ∃ keywords properties items, keywords.Plain ∧
      (keywords.type = none → properties = none ∧ items = none) ∧
      normalizeSchema schema = ((Schema.mk keywords properties items none
        none).mapParts normalizeSchema).setDefaults := by
  cases mergeable with
  | @regular keywords properties items ofKeywords untyped _ _ =>
      exact ⟨keywords.nameType, properties, items, ofKeywords.toPlain.nameType,
        fun isType => untyped (Keywords.type_of_nameType isType),
        normalizeSchema_eq ..⟩
  | union nullable isUnion merges untyped _ _ _ _ _ =>
      exact ⟨_, _, _, merges.plain, untyped, normalizeSchema_union nullable
        (isUnion.imp_left fun ⟨one, any, _⟩ => ⟨one, any⟩) merges.plain⟩

/-- Parameters are valid under plain keywords if they are so as any other
dictionary. -/
theorem validateParams_iff_of_plain {keywords : Keywords}
    {properties : Option (List (String × Schema))} {items : Option Schema}
    (plain : keywords.Plain)
    (untyped : keywords.type = none → properties = none ∧ items = none)
    (named : ∀ types ∈ keywords.type, ∃ type, types = .name type)
    (params : List (String × Param)) :
    validateParams (.mk keywords properties items none none) params = some [] ↔
      validate (.mk keywords properties items none none) (.dict params) "" = [] := by
  rw [validateParams]
  cases isType : keywords.type with
  | none =>
      obtain ⟨rfl, rfl⟩ := untyped isType
      obtain ⟨_, _, _, _, noRequired⟩ := plain.untyped isType
      have isObject : (Schema.mk keywords none none none none).isObject = true := by
        rw [Schema.isObject, isType]
      have sameErrors (label : String) :
          Keywords.errors { keywords with type := some (.name .object) }
            (.dict params) label = keywords.errors (.dict params) label := by
        simp [Keywords.errors, isType, resolveType, Param.numeric]
      rw [if_pos isObject, Option.some_inj, Schema.asObject, validate_eq_nil,
        validate_eq_nil, sameErrors, isType]
      simp [Param.isNull, resolveType, failsType, TypeName.isInstance,
        Keywords.missingErrors, noRequired]
  | some types =>
      obtain ⟨type, rfl⟩ := named types isType
      by_cases isObject : type = .object
      · rw [isObject] at isType
        rw [Schema.isObject, isType, if_pos rfl, Option.some_inj, Schema.asObject,
          ← isType]
      · have notObject : (Schema.mk keywords properties items none none).isObject =
            false := by
          rw [Schema.isObject, isType]
          cases type <;> first | rfl | exact absurd rfl isObject
        rw [notObject, if_neg (by rintro ⟨⟩)]
        refine iff_of_false (by rintro ⟨⟩) fun valid => ?_
        obtain ⟨_, isNull⟩ | ⟨hasType, _⟩ := validate_eq_nil.mp valid
        · cases isNull
        · have isDict := plain.resolveType_of_dict (by simp [isType]) hasType
          rw [isType] at isDict
          exact isObject (Option.some_inj.mp isDict)

/-- Parameters are valid under the normalised schema if they are so as any other
dictionary. -/
theorem validateParams_normalizeSchema {listed : Bool} {schema : Schema}
    (mergeable : schema.Mergeable listed) (named : (normalizeSchema schema).IsNamed)
    (params : List (String × Param)) :
    validateParams (normalizeSchema schema) params = some [] ↔
      validate (normalizeSchema schema) (.dict params) "" = [] := by
  obtain ⟨keywords, properties, items, plain, untyped, same⟩ :=
    mergeable.normalizeSchema_eq_mapParts
  rw [same, Schema.mapParts, Schema.setDefaults] at named ⊢
  split at named
  · next isObject =>
      rw [if_pos isObject]
      have plain : Keywords.Plain
          { keywords with required := some (keywords.required.getD []) } :=
        ⟨by simp [isObject], plain.typed, plain.unmixed⟩
      exact validateParams_iff_of_plain plain (by simp [isObject]) named params
  · next notObject =>
      rw [if_neg notObject]
      exact validateParams_iff_of_plain plain (fun isType => by simp [untyped isType])
        named params

/-- An integer from 1 that may be null, with its maximum beside the union, and a
list that may be null. -/
def levelSchema : Schema :=
  .mk { type := some (.name .object), required := some ["level"] }
    (some
      [("level", .mk { maximum := some (.int 9) } none none none
        (some [.mk { type := some (.name .integer), minimum := some (.int 1) }
          none none none none, nullSchema])),
        ("tags", .mk { type := some (.names [.array, .null]) } none
          (some (.mk { type := some (.name .string) } none none none none))
          none none)])
    none none none

theorem levelSchema_mergeable : levelSchema.Mergeable false := by
  have known (type : TypeName) (isKnown : type.IsKnown) (required : Option (List String)) :
      Keywords.Regular { type := some (.name type), required } :=
    Keywords.regular_of_name rfl isKnown rfl rfl
  have object : TypeName.object.IsKnown := by simp [TypeName.IsKnown]
  have integer : TypeName.integer.IsKnown := by simp [TypeName.IsKnown]
  have array : TypeName.array.IsKnown := by simp [TypeName.IsKnown]
  have string : TypeName.string.IsKnown := by simp [TypeName.IsKnown]
  refine .regular (known .object object _) (by rintro ⟨⟩) ?_ forall_mem_none
  rintro _ ⟨rfl⟩ prop member
  obtain rfl | rfl := List.mem_pair.mp member
  · refine .union (.inr rfl) (.inr ⟨rfl, rfl⟩)
      ⟨⟨by rintro ⟨⟩, ?_, forall_mem_none⟩, ?_, ?_⟩ (by rintro ⟨⟩)
      forall_mem_none forall_mem_none (fun _ => rfl) forall_mem_none
      forall_mem_none
    · rintro _ ⟨rfl⟩
      exact ⟨.integer, rfl, integer, fun _ => .inr⟩
    · exact ⟨forall_mem_none, forall_mem_none, forall_mem_none,
        by rintro _ _ _ ⟨⟩, forall_mem_none, forall_mem_none, forall_mem_none⟩
    · exact fun val _ satisfied => ⟨forall_mem_none, forall_mem_none,
        forall_mem_none, satisfied.maximum, forall_mem_none, forall_mem_none,
        forall_mem_none⟩
  · refine .regular ⟨⟨by rintro ⟨⟩, ?_, forall_mem_none⟩, rfl,
      fun _ => forall_mem_none⟩ (by rintro ⟨⟩) forall_mem_none ?_
    · rintro _ ⟨rfl⟩
      refine ⟨.array, rfl, array, ?_⟩
      rintro val ⟨type, member, typed⟩
      obtain rfl | rfl := List.mem_pair.mp member
      · exact .inr typed
      · cases val <;> first | exact .inl rfl | cases typed
    · rintro _ ⟨rfl⟩
      exact .regular (known .string string _) (by rintro ⟨⟩) forall_mem_none
        forall_mem_none

/-- The minimum of a branch beside a higher one. -/
def floorSchema : Schema :=
  .mk { type := some (.name .object) }
    (some [("level", .mk { minimum := some (.int 5) } none none none
      (some [.mk { type := some (.name .integer), minimum := some (.int 3) }
        none none none none, nullSchema]))])
    none none none

end AgentSchedBench.Agent
