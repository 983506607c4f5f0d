/-!
# JSON values

A value as a JSON parser returns it.  The fields of an object are in order of
appearance; a parser keeps one field of each name, and `field?` finds it.
Numbers with a fraction or an exponent are kept as their text.
-/

/-- A parsed JSON value. -/
inductive Json where
  | null
  | bool (value : Bool)
  | int (value : Int)
  | float (text : String)
  | str (value : String)
  | arr (items : List Json)
  | obj (fields : List (String × Json))
deriving Repr

namespace Json

/-- Is the value an object? -/
def isObj : Json → Bool
  | obj _ => true
  | _ => false

/-- The fields of an object. -/
def fields? : Json → Option (List (String × Json))
  | obj fields => some fields
  | _ => none

end Json

/-- The value of the field of this name. -/
def fieldOf (fields : List (String × Json)) (name : String) : Option Json :=
  (fields.find? (·.1 = name)).map (·.2)

theorem fieldOf_isSome {fields : List (String × Json)} {name : String} :
    (fieldOf fields name).isSome = true ↔ name ∈ fields.map Prod.fst := by
  rw [fieldOf, Option.isSome_map, List.find?_isSome]
  simp

theorem fieldOf_cons (field : String × Json) (fields : List (String × Json))
    (name : String) :
    fieldOf (field :: fields) name =
      if field.1 = name then some field.2 else fieldOf fields name := by
  rw [fieldOf, List.find?_cons, fieldOf]
  by_cases same : field.1 = name
  · simp [same]
  · simp [same]

theorem mem_of_fieldOf {fields : List (String × Json)} {name : String}
    {value : Json} (found : fieldOf fields name = some value) :
    (name, value) ∈ fields := by
  obtain ⟨field, isField, rfl⟩ := Option.map_eq_some_iff.mp found
  have isName := List.find?_some isField
  rw [decide_eq_true_eq] at isName
  rw [← isName]
  exact List.mem_of_find?_eq_some isField
