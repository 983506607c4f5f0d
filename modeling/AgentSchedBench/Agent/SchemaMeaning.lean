import AgentSchedBench.Agent.ToolSchemas

/-!
# What a schema means

A parameter satisfies a schema if it satisfies each of its keywords. A keyword
for numbers, texts, lists or dictionaries says nothing of other values.
-/

namespace AgentSchedBench.Agent

/-! ## Keywords -/

/-- What is absent is not restricted. -/
theorem forall_mem_none {α : Type} {p : α → Prop} :
    ∀ value ∈ (none : Option α), p value := by
  rintro _ ⟨⟩

/-- The float is a whole number. -/
def PyFloat.IsWhole : PyFloat → Prop
  | finite value => value.den = 1
  | _ => False

/-- The value is one of the type, `integers` being the floats that are integers;
a boolean is no number. -/
def TypeName.Matches (integers : PyFloat → Prop) : TypeName → Param → Prop
  | string, .str _ => True
  | integer, .number (.int _) => True
  | integer, .number (.float value) => integers value
  | number, .number _ => True
  | boolean, .bool _ => True
  | array, .list _ => True
  | object, .dict _ => True
  | null, .null => True
  | _, _ => False

def SchemaType.Matches (integers : PyFloat → Prop) : SchemaType → Param → Prop
  | name type, val => type.Matches integers val
  | names types, val => ∃ type ∈ types, type.Matches integers val

/-- The keywords that hold no schema are satisfied. -/
structure Keywords.Satisfied (integers : PyFloat → Prop) (keywords : Keywords)
    (val : Param) : Prop where
  type : ∀ type ∈ keywords.type, type.Matches integers val
  enum : ∀ values ∈ keywords.enum, ∃ value ∈ values, val.eq false value = true
  minimum : ∀ bound ∈ keywords.minimum, ∀ number, val = .number number →
    number.value.lt bound.value = false
  maximum : ∀ bound ∈ keywords.maximum, ∀ number, val = .number number →
    bound.value.lt number.value = false
  minLength : ∀ bound ∈ keywords.minLength, ∀ text, val = .str text →
    bound ≤ (text.length : Int)
  maxLength : ∀ bound ∈ keywords.maxLength, ∀ text, val = .str text →
    (text.length : Int) ≤ bound
  required : ∀ keys ∈ keywords.required, ∀ fields, val = .dict fields →
    ∀ key ∈ keys, (fields.lookup key).isSome = true

/-! ## Schemas -/

mutual

/-- The parameter satisfies the schema. -/
def Schema.Satisfied (integers : PyFloat → Prop) : Schema → Param → Prop
  | .mk keywords properties items oneOf anyOf, val =>
      keywords.Satisfied integers val ∧
      (match properties with
        | some props => ∀ fields, val = .dict fields →
            ∀ field ∈ fields, PropertySatisfied integers props field.1 field.2
        | none => True) ∧
      (match items with
        | some schema => ∀ values, val = .list values →
            ∀ item ∈ values, schema.Satisfied integers item
        | none => True) ∧
      (match oneOf with
        | some options => OneSatisfied integers options val
        | none => True) ∧
      (match anyOf with
        | some options => SomeSatisfied integers options val
        | none => True)

def PropertySatisfied (integers : PyFloat → Prop) :
    List (String × Schema) → String → Param → Prop
  | [], _, _ => True
  | (name, schema) :: props, key, val =>
      if name = key then schema.Satisfied integers val
      else PropertySatisfied integers props key val

/-- Exactly one of the schemas is satisfied. -/
def OneSatisfied (integers : PyFloat → Prop) : List Schema → Param → Prop
  | [], _ => False
  | schema :: others, val =>
      schema.Satisfied integers val ∧ ¬SomeSatisfied integers others val ∨
        ¬schema.Satisfied integers val ∧ OneSatisfied integers others val

def SomeSatisfied (integers : PyFloat → Prop) : List Schema → Param → Prop
  | [], _ => False
  | schema :: others, val =>
      schema.Satisfied integers val ∨ SomeSatisfied integers others val

end

/-! ## Induction -/

/-- A schema has what the schemas have that it holds. -/
def Schema.Inherits (motive : Schema → Prop) : Prop :=
  ∀ keywords properties items oneOf anyOf,
    (∀ props ∈ properties, ∀ prop ∈ props, motive prop.2) →
    (∀ schema ∈ items, motive schema) →
    (∀ options ∈ oneOf, ∀ schema ∈ options, motive schema) →
    (∀ options ∈ anyOf, ∀ schema ∈ options, motive schema) →
    motive (.mk keywords properties items oneOf anyOf)

section Induction

variable {motive : Schema → Prop}

mutual

/-- Induction on a schema and those that it holds. -/
theorem Schema.induction (step : Schema.Inherits motive) :
    ∀ schema, motive schema
  | .mk keywords properties items oneOf anyOf =>
      step keywords properties items oneOf anyOf
        (match properties with
          | none => nofun
          | some props => by
              rintro _ ⟨rfl⟩
              exact Schema.induction_properties step props)
        (match items with
          | none => nofun
          | some schema => by
              rintro _ ⟨rfl⟩
              exact Schema.induction step schema)
        (match oneOf with
          | none => nofun
          | some options => by
              rintro _ ⟨rfl⟩
              exact Schema.induction_options step options)
        (match anyOf with
          | none => nofun
          | some options => by
              rintro _ ⟨rfl⟩
              exact Schema.induction_options step options)

theorem Schema.induction_properties (step : Schema.Inherits motive) :
    ∀ props : List (String × Schema), ∀ prop ∈ props, motive prop.2
  | [] => nofun
  | (_, schema) :: props =>
      List.forall_mem_cons.mpr
        ⟨Schema.induction step schema, Schema.induction_properties step props⟩

theorem Schema.induction_options (step : Schema.Inherits motive) :
    ∀ options : List Schema, ∀ schema ∈ options, motive schema
  | [] => nofun
  | schema :: options =>
      List.forall_mem_cons.mpr
        ⟨Schema.induction step schema, Schema.induction_options step options⟩

end

end Induction

/-! ## Properties -/

theorem mem_of_lookup {props : List (String × Schema)} {key : String}
    {schema : Schema} (isProperty : props.lookup key = some schema) :
    (key, schema) ∈ props := by
  obtain ⟨_, _, rfl, _⟩ := List.lookup_eq_some_iff.mp isProperty
  exact List.mem_append_right _ List.mem_cons_self

theorem propertySatisfied_iff (integers : PyFloat → Prop)
    (props : List (String × Schema)) (key : String) (val : Param) :
    PropertySatisfied integers props key val ↔
      ∀ schema ∈ props.lookup key, schema.Satisfied integers val := by
  induction props with
  | nil => exact iff_of_true trivial nofun
  | cons prop props induction =>
      rw [PropertySatisfied, List.lookup_cons]
      by_cases isKey : prop.1 = key
      · rw [if_pos isKey, beq_iff_eq.mpr isKey.symm]
        exact ⟨by rintro satisfied _ ⟨rfl⟩; exact satisfied,
          fun all => all _ rfl⟩
      · rw [if_neg isKey, beq_eq_false_iff_ne.mpr (Ne.symm isKey)]
        exact induction

/-- A schema is satisfied if each of its keywords is. -/
theorem Schema.satisfied_iff {integers : PyFloat → Prop} {keywords : Keywords}
    {properties : Option (List (String × Schema))} {items : Option Schema}
    {oneOf anyOf : Option (List Schema)} {val : Param} :
    (Schema.mk keywords properties items oneOf anyOf).Satisfied integers val ↔
      keywords.Satisfied integers val ∧
      (∀ props ∈ properties, ∀ fields, val = .dict fields → ∀ field ∈ fields,
        ∀ schema ∈ props.lookup field.1, schema.Satisfied integers field.2) ∧
      (∀ schema ∈ items, ∀ values, val = .list values → ∀ item ∈ values,
        schema.Satisfied integers item) ∧
      (∀ options ∈ oneOf, OneSatisfied integers options val) ∧
      ∀ options ∈ anyOf, SomeSatisfied integers options val := by
  rw [Schema.Satisfied.eq_def]
  refine and_congr_right fun _ => and_congr ?_ (and_congr ?_ (and_congr ?_ ?_))
  · cases properties <;> simp [propertySatisfied_iff]
  · cases items <;> simp
  · cases oneOf <;> simp
  · cases anyOf <;> simp

end AgentSchedBench.Agent
