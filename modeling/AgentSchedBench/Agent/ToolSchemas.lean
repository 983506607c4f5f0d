import Mathlib.Data.Rat.Defs
import Mathlib.Algebra.Order.Ring.Rat

/-!
# The parameters of a tool and their schema

A tool call is cast to the types of the schema of the tool and then validated.
Both read of a list of types the first one that is not null.
-/

namespace AgentSchedBench.Agent

/-! ## Parameters -/

inductive PyFloat where
  | finite (value : ℚ)
  | infinite (negative : Bool)
  | nan
deriving DecidableEq

/-- `left < right` -/
def PyFloat.lt : PyFloat → PyFloat → Bool
  | finite left, finite right => decide (left < right)
  | finite _, infinite negative => !negative
  | infinite negative, finite _ => negative
  | infinite left, infinite right => left && !right
  | _, _ => false

/-- `left == right` -/
def PyFloat.eq : PyFloat → PyFloat → Bool
  | finite left, finite right => left == right
  | infinite left, infinite right => left == right
  | _, _ => false

inductive PyNumber where
  | int (value : Int)
  | float (value : PyFloat)
deriving DecidableEq

def PyNumber.value : PyNumber → PyFloat
  | int value => .finite value
  | float value => value

/-- A value that is read from JSON, or made by a cast. -/
inductive Param where
  | null
  | bool (value : Bool)
  | number (value : PyNumber)
  | str (value : String)
  | list (items : List Param)
  | dict (fields : List (String × Param))

def Param.isNull : Param → Bool
  | null => true
  | _ => false

def Param.isBool : Param → Bool
  | bool _ => true
  | _ => false

/-- A value as a number, of which a boolean is one. -/
def Param.numeric : Param → Option PyFloat
  | bool value => some (.finite (if value then 1 else 0))
  | number value => some value.value
  | _ => none

mutual

/-- `left == right`; are a boolean and a number compared? -/
def Param.eq (mixed : Bool) : Param → Param → Bool
  | null, null => true
  | bool left, bool right => left == right
  | number left, number right => left.value.eq right.value
  | bool left, number right =>
      mixed && (PyFloat.finite (if left then 1 else 0)).eq right.value
  | number left, bool right =>
      mixed && left.value.eq (.finite (if right then 1 else 0))
  | str left, str right => left == right
  | list left, list right => Param.eqItems mixed left right
  | dict left, dict right =>
      left.length == right.length && Param.eqFields mixed left right
  | _, _ => false

def Param.eqItems (mixed : Bool) : List Param → List Param → Bool
  | [], [] => true
  | left :: lefts, right :: rights =>
      Param.eq mixed left right && Param.eqItems mixed lefts rights
  | _, _ => false

/-- Each field of the one is a field of the other. -/
def Param.eqFields (mixed : Bool) :
    List (String × Param) → List (String × Param) → Bool
  | [], _ => true
  | (name, left) :: lefts, rights =>
      (match rights.lookup name with
        | some right => Param.eq mixed left right
        | none => false) && Param.eqFields mixed lefts rights

end

/-! ## Schemas -/

inductive TypeName where
  | string
  | integer
  | number
  | boolean
  | array
  | object
  | null
  | other (name : String)
deriving DecidableEq

def TypeName.text : TypeName → String
  | string => "string"
  | integer => "integer"
  | number => "number"
  | boolean => "boolean"
  | array => "array"
  | object => "object"
  | null => "null"
  | other name => name

/-- The value of the keyword `type`. -/
inductive SchemaType where
  | name (type : TypeName)
  | names (types : List TypeName)
deriving DecidableEq

/-- The keywords of a schema that hold no schema; is `nullable` true? -/
structure Keywords where
  type : Option SchemaType := none
  nullable : Bool := false
  enum : Option (List Param) := none
  minimum : Option PyNumber := none
  maximum : Option PyNumber := none
  minLength : Option Int := none
  maxLength : Option Int := none
  required : Option (List String) := none

inductive Schema where
  | mk (keywords : Keywords) (properties : Option (List (String × Schema)))
      (items : Option Schema) (oneOf anyOf : Option (List Schema))

/-- `_resolve_type` -/
def resolveType : Option SchemaType → Option TypeName
  | none => none
  | some (.name type) => some type
  | some (.names types) => types.find? (· ≠ .null)

/-- `isinstance(val, _TYPE_MAP[type])`, if the type is in the map -/
def TypeName.isInstance : TypeName → Param → Option Bool
  | string, val => some (match val with | .str _ => true | _ => false)
  | integer, val =>
      some (match val with | .number (.int _) | .bool _ => true | _ => false)
  | number, val => some (match val with | .number _ | .bool _ => true | _ => false)
  | boolean, val => some (match val with | .bool _ => true | _ => false)
  | array, val => some (match val with | .list _ => true | _ => false)
  | object, val => some (match val with | .dict _ => true | _ => false)
  | null, _ | other _, _ => none

/-! ## Casting -/

/-- What Python reads from texts, and the texts it makes. -/
structure ParamText where
  readInt : String → Option Int
  readFloat : String → Option PyFloat
  lower : String → String
  str : Param → String

mutual

/-- `_cast_value` -/
def castValue (python : ParamText) : Schema → Param → Param
  | .mk keywords properties items _ _, val =>
      match resolveType keywords.type, val with
      | some .boolean, .bool value => .bool value
      | some .integer, .number (.int value) => .number (.int value)
      | some .string, .str value => .str value
      | some .number, .number value => .number value
      | some .number, .bool value => .bool value
      | some .integer, .str value =>
          match python.readInt value with
          | some read => .number (.int read)
          | none => .str value
      | some .number, .str value =>
          match python.readFloat value with
          | some read => .number (.float read)
          | none => .str value
      | some .string, .null => .null
      | some .string, val => .str (python.str val)
      | some .boolean, .str value =>
          if python.lower value ∈ ["true", "1", "yes"] then .bool true
          else if python.lower value ∈ ["false", "0", "no"] then .bool false
          else .str value
      | some .array, .list values =>
          match items with
          | some schema => .list (values.map fun item => castValue python schema item)
          | none => .list values
      | some .object, .dict fields =>
          match properties with
          | some props =>
              .dict (fields.map fun (key, value) =>
                (key, castProperty python props key value))
          | none => .dict fields
      | _, val => val

/-- The cast of a field by the schema of its property, if it has one. -/
def castProperty (python : ParamText) :
    List (String × Schema) → String → Param → Param
  | [], _, val => val
  | (name, schema) :: props, key, val =>
      if name = key then castValue python schema val
      else castProperty python props key val

end

/-- `_cast_object` -/
def castObject (python : ParamText) : Schema → Param → Param
  | .mk _ (some props) _ _ _, .dict fields =>
      .dict (fields.map fun (key, value) =>
        (key, castProperty python props key value))
  | _, val => val

/-- `schema.get("type", "object") == "object"` -/
def Schema.isObject : Schema → Bool
  | .mk keywords _ _ _ _ =>
      match keywords.type with
      | none | some (.name .object) => true
      | _ => false

/-- `cast_params` -/
def castParams (python : ParamText) (schema : Schema) (params : Param) : Param :=
  if schema.isObject then castObject python schema params else params

/-! ## Validation -/

inductive ParamError where
  | type (label : String) (type : TypeName)
  | enum (label : String) (values : List Param)
  | minimum (label : String) (bound : PyNumber)
  | maximum (label : String) (bound : PyNumber)
  | minLength (label : String) (bound : Int)
  | maxLength (label : String) (bound : Int)
  | missing (path : String)

/-- The text of an error. -/
def ParamError.message (python : ParamText) : ParamError → String
  | type label expected => label ++ " should be " ++ expected.text
  | enum label values => label ++ " must be one of " ++ python.str (.list values)
  | minimum label bound => label ++ " must be >= " ++ python.str (.number bound)
  | maximum label bound => label ++ " must be <= " ++ python.str (.number bound)
  | minLength label bound =>
      label ++ " must be at least " ++ toString bound ++ " chars"
  | maxLength label bound =>
      label ++ " must be at most " ++ toString bound ++ " chars"
  | missing path => "missing required " ++ path

/-- The value has not the type. -/
def failsType : Option TypeName → Param → Bool
  | some type, val =>
      match type.isInstance val with
      | some isInstance =>
          !isInstance || ((type == .integer || type == .number) && val.isBool)
      | none => false
  | none, _ => false

/-- The path of a property, and of an item. -/
def propertyPath (path key : String) : String :=
  if path = "" then key else path ++ "." ++ key

def itemPath (path : String) (index : Nat) : String :=
  path ++ "[" ++ toString index ++ "]"

namespace Keywords

variable (keywords : Keywords)

def isNullable : Bool :=
  (match keywords.type with
    | some (.names types) => decide (.null ∈ types)
    | _ => false) || keywords.nullable

/-- The errors of the keywords that hold no schema, but for the type. -/
def errors (val : Param) (label : String) : List ParamError :=
  (match keywords.enum with
    | some values =>
        if values.any fun value => val.eq true value then []
        else [.enum label values]
    | none => []) ++
  (match resolveType keywords.type, val.numeric with
    | some .integer, some number | some .number, some number =>
        (match keywords.minimum with
          | some bound =>
              if number.lt bound.value then [.minimum label bound] else []
          | none => []) ++
        (match keywords.maximum with
          | some bound =>
              if bound.value.lt number then [.maximum label bound] else []
          | none => [])
    | _, _ => []) ++
  (match resolveType keywords.type, val with
    | some .string, .str text =>
        (match keywords.minLength with
          | some bound =>
              if (text.length : Int) < bound then [.minLength label bound]
              else []
          | none => []) ++
        (match keywords.maxLength with
          | some bound =>
              if bound < (text.length : Int) then [.maxLength label bound]
              else []
          | none => [])
    | _, _ => [])

/-- The required fields that are missing. -/
def missingErrors (fields : List (String × Param)) (path : String) :
    List ParamError :=
  (keywords.required.getD []).flatMap fun key =>
    if (fields.lookup key).isSome then []
    else [.missing (propertyPath path key)]

end Keywords

mutual

/-- `_validate` -/
def validate : Schema → Param → String → List ParamError
  | .mk keywords properties items _ _, val, path =>
      let label := if path = "" then "parameter" else path
      let type := resolveType keywords.type
      if keywords.isNullable && val.isNull then []
      else if failsType type val then
        [.type label (type.getD (.other "None"))]
      else
        keywords.errors val label ++
        (match type, val with
          | some .object, .dict fields =>
              keywords.missingErrors fields path ++
                (match properties with
                  | some props =>
                      fields.flatMap fun (key, value) =>
                        validateProperty props key value (propertyPath path key)
                  | none => [])
          | some .array, .list values =>
              (match items with
                | some schema =>
                    values.zipIdx.flatMap fun (value, index) =>
                      validate schema value (itemPath path index)
                | none => [])
          | _, _ => [])

/-- The errors of a field, if its property has a schema. -/
def validateProperty :
    List (String × Schema) → String → Param → String → List ParamError
  | [], _, _, _ => []
  | (name, schema) :: props, key, val, path =>
      if name = key then validate schema val path
      else validateProperty props key val path

end

/-- `{**schema, "type": "object"}` -/
def Schema.asObject : Schema → Schema
  | .mk keywords properties items oneOf anyOf =>
      .mk { keywords with type := some (.name .object) } properties items oneOf
        anyOf

/-- `validate_params`, unless it raises: the schema must be one of objects. -/
def validateParams (schema : Schema) (params : List (String × Param)) :
    Option (List ParamError) :=
  if schema.isObject then some (validate schema.asObject (.dict params) "")
  else none

end AgentSchedBench.Agent
