import AgentSchedBench.Agent.ValidateSchema

/-!
# Normalising the schemas of MCP tools

A list of one type and null, and a union of one branch and null, become that
type or that branch with the keyword `nullable`.
-/

namespace AgentSchedBench.Agent

/-! ## Nullable types and unions -/

/-- The one type of a list besides null. -/
def SchemaType.besidesNull : SchemaType → Option TypeName
  | name _ => none
  | names types =>
      match types.filter (· ≠ .null) with
      | [type] => if .null ∈ types then some type else none
      | _ => none

namespace Keywords

/-- A type that is listed with null is named, and `nullable`. -/
def nameType (keywords : Keywords) : Keywords :=
  match keywords.type.bind SchemaType.besidesNull with
  | some type => { keywords with type := some (.name type), nullable := true }
  | none => keywords

/-- `merged.update(branch)`, and `nullable` -/
def update (merged branch : Keywords) : Keywords where
  type := branch.type.or merged.type
  nullable := true
  enum := branch.enum.or merged.enum
  minimum := branch.minimum.or merged.minimum
  maximum := branch.maximum.or merged.maximum
  minLength := branch.minLength.or merged.minLength
  maxLength := branch.maxLength.or merged.maxLength
  required := branch.required.or merged.required

end Keywords

def Schema.update : Schema → Schema → Schema
  | .mk keywords properties items oneOf anyOf,
    .mk keywords' properties' items' oneOf' anyOf' =>
      .mk (keywords.update keywords') (properties'.or properties)
        (items'.or items) (oneOf'.or oneOf) (anyOf'.or anyOf)

/-- `option.get("type") == "null"` -/
def Schema.isNull : Schema → Bool
  | .mk keywords _ _ _ _ => keywords.type == some (.name .null)

/-- `_extract_nullable_branch` -/
def extractNullableBranch (options : List Schema) : Option Schema :=
  match options.filter fun option => !option.isNull with
  | [branch] => if options.any Schema.isNull then some branch else none
  | _ => none

/-- The schema with the branch of the first union that has one merged over the
keywords beside the union. -/
def Schema.mergeBranch (oneBranch anyBranch : Option Schema) : Schema → Schema
  | .mk keywords properties items oneOf anyOf =>
      match oneBranch with
      | some branch => (Schema.mk keywords properties items none anyOf).update branch
      | none =>
          match anyBranch with
          | some branch =>
              (Schema.mk keywords properties items oneOf none).update branch
          | none => .mk keywords properties items oneOf anyOf

/-- `normalized.setdefault(..)` if the type is that of objects -/
def Schema.setDefaults : Schema → Schema
  | .mk keywords properties items oneOf anyOf =>
      if keywords.type = some (.name .object) then
        .mk { keywords with required := some (keywords.required.getD []) }
          (some (properties.getD [])) items oneOf anyOf
      else .mk keywords properties items oneOf anyOf

/-! ## Normalisation -/

mutual

/-- `_normalize_schema_for_openai`, whose merge takes the properties and the
items of the branch or those beside it, and so may as well come after they are
normalised. -/
def normalizeSchema : Schema → Schema
  | .mk keywords properties items oneOf anyOf =>
      let oneBranch := match oneOf with
        | some options => extractNullableBranch (normalizeBranches options)
        | none => none
      let anyBranch := match anyOf with
        | some options => extractNullableBranch (normalizeBranches options)
        | none => none
      let properties := match properties with
        | some props => some (normalizeProperties props)
        | none => none
      let items := match items with
        | some schema => some (normalizeSchema schema)
        | none => none
      ((Schema.mk keywords.nameType properties items oneOf anyOf).mergeBranch
        oneBranch anyBranch).setDefaults

def normalizeProperties : List (String × Schema) → List (String × Schema)
  | [] => []
  | (name, prop) :: props =>
      (name, normalizeSchema prop) :: normalizeProperties props

/-- A branch with its properties and items normalised. -/
def normalizeBranch : Schema → Schema
  | .mk keywords properties items oneOf anyOf =>
      let properties := match properties with
        | some props => some (normalizeProperties props)
        | none => none
      let items := match items with
        | some schema => some (normalizeSchema schema)
        | none => none
      .mk keywords properties items oneOf anyOf

def normalizeBranches : List Schema → List Schema
  | [] => []
  | option :: options => normalizeBranch option :: normalizeBranches options

end

/-! ## The order of the source -/

/-- The schema with its properties and items changed. -/
def Schema.mapParts (change : Schema → Schema) : Schema → Schema
  | .mk keywords properties items oneOf anyOf =>
      .mk keywords
        (properties.map fun props => props.map fun prop =>
          (prop.1, change prop.2))
        (items.map change) oneOf anyOf

theorem normalizeProperties_eq (props : List (String × Schema)) :
    normalizeProperties props =
      props.map fun prop => (prop.1, normalizeSchema prop.2) := by
  induction props with
  | nil => rfl
  | cons prop props induction =>
      rw [normalizeProperties, induction, List.map_cons]

theorem normalizeBranch_eq (branch : Schema) :
    normalizeBranch branch = branch.mapParts normalizeSchema := by
  obtain ⟨keywords, properties, items, oneOf, anyOf⟩ := branch
  rw [normalizeBranch.eq_def]
  cases properties <;> cases items <;>
    simp [Schema.mapParts, normalizeProperties_eq]

theorem normalizeBranches_eq (options : List Schema) :
    normalizeBranches options =
      options.map (Schema.mapParts normalizeSchema) := by
  induction options with
  | nil => rfl
  | cons option options induction =>
      rw [normalizeBranches, induction, normalizeBranch_eq, List.map_cons]

theorem extractNullableBranch_mapParts (change : Schema → Schema)
    (options : List Schema) :
    extractNullableBranch (options.map (Schema.mapParts change)) =
      (extractNullableBranch options).map (Schema.mapParts change) := by
  have same : ∀ schema : Schema,
      (schema.mapParts change).isNull = schema.isNull := by
    rintro ⟨_, _, _, _, _⟩
    rfl
  unfold extractNullableBranch
  rw [List.filter_map, List.any_map, Function.comp_def, Function.comp_def]
  simp only [same]
  cases options.filter fun option => !option.isNull with
  | nil => rfl
  | cons branch branches =>
      cases branches with
      | nil =>
          rw [List.map_cons, List.map_nil]
          dsimp only
          rw [apply_ite (Option.map _)]
          rfl
      | cons _ _ => rfl

theorem mergeBranch_mapParts (change : Schema → Schema)
    (oneBranch anyBranch : Option Schema) (schema : Schema) :
    (schema.mapParts change).mergeBranch (oneBranch.map (Schema.mapParts change))
        (anyBranch.map (Schema.mapParts change)) =
      (schema.mergeBranch oneBranch anyBranch).mapParts change := by
  have updated : ∀ schema branch : Schema,
      (schema.mapParts change).update (branch.mapParts change) =
        (schema.update branch).mapParts change := by
    rintro ⟨_, properties, items, _, _⟩ ⟨_, properties', items', _, _⟩
    cases properties' <;> cases items' <;> rfl
  obtain ⟨keywords, properties, items, oneOf, anyOf⟩ := schema
  cases oneBranch with
  | some branch => exact updated (.mk keywords properties items none anyOf) branch
  | none =>
      cases anyBranch with
      | some branch => exact updated (.mk keywords properties items oneOf none) branch
      | none => rfl

/-- A union is merged, and then the properties and the items are normalised. -/
theorem normalizeSchema_eq (keywords : Keywords)
    (properties : Option (List (String × Schema))) (items : Option Schema)
    (oneOf anyOf : Option (List Schema)) :
    normalizeSchema (.mk keywords properties items oneOf anyOf) =
      (((Schema.mk keywords.nameType properties items oneOf anyOf).mergeBranch
        (oneOf.bind extractNullableBranch)
        (anyOf.bind extractNullableBranch)).mapParts normalizeSchema).setDefaults := by
  rw [normalizeSchema.eq_def, ← mergeBranch_mapParts]
  congr 1
  congr 1
  · cases oneOf with
    | none => rfl
    | some options =>
        exact (congrArg _ (normalizeBranches_eq options)).trans
          (extractNullableBranch_mapParts _ options)
  · cases anyOf with
    | none => rfl
    | some options =>
        exact (congrArg _ (normalizeBranches_eq options)).trans
          (extractNullableBranch_mapParts _ options)
  · cases properties <;> cases items <;>
      simp [Schema.mapParts, normalizeProperties_eq]

end AgentSchedBench.Agent
