import AgentSchedBench.Library.Json
import Mathlib.Data.List.Nodup

/-!
# Trace records

A record of a trace file is a JSON object, given by its fields.
-/

namespace AgentSchedBench.Trace

/-- The fields of a trace record. -/
abbrev Record := List (String × Json)

namespace Record

/-- `record.get(name) == text` -/
def fieldIs (record : Record) (name text : String) : Bool :=
  match fieldOf record name with
  | some (.str value) => value == text
  | _ => false

/-- Is this the type of the record? -/
def hasType (record : Record) (name : String) : Bool :=
  record.fieldIs "type" name

/-- `record[name] = value` -/
def withField (record : Record) (name : String) (value : Json) : Record :=
  if (fieldOf record name).isSome then
    record.map fun field => if field.1 = name then (name, value) else field
  else record ++ [(name, value)]

/-- `record.get(name)` -/
def get (record : Record) (name : String) : Json :=
  (fieldOf record name).getD .null

/-- `record.setdefault(name, value)` -/
def setDefault (record : Record) (name : String) (value : Json) : Record :=
  if (fieldOf record name).isSome then record else record ++ [(name, value)]

/-- `record.update(fields)` -/
def update (record fields : Record) : Record :=
  fields.foldl (fun record field => record.withField field.1 field.2) record

/-- The names of the fields. -/
def names (record : Record) : List String := record.map Prod.fst

/-- Does the record belong to the agent? -/
def ofAgent (agent : String) (record : Record) : Bool :=
  record.fieldIs "agent_id" agent

/-! ## Setting a field -/

theorem mem_withField {record : Record} {name : String} {value : Json}
    {field : String × Json} :
    field ∈ record.withField name value ↔
      field = (name, value) ∨ (field ∈ record ∧ field.1 ≠ name) := by
  rw [withField]
  split
  · next present =>
      rw [fieldOf_isSome, List.mem_map] at present
      obtain ⟨old, oldMember, isName⟩ := present
      rw [List.mem_map]
      constructor
      · rintro ⟨other, member, rfl⟩
        split
        · exact Or.inl rfl
        · next differs => exact Or.inr ⟨member, differs⟩
      · rintro (rfl | ⟨member, differs⟩)
        · exact ⟨old, oldMember, if_pos isName⟩
        · exact ⟨field, member, if_neg differs⟩
  · next absent =>
      rw [fieldOf_isSome] at absent
      rw [List.mem_append, List.mem_singleton, or_comm]
      refine or_congr_right ⟨fun member => ⟨member, ?_⟩, And.left⟩
      rintro rfl
      exact absent (List.mem_map_of_mem member)

theorem names_withField (record : Record) (name : String) (value : Json) :
    (record.withField name value).names =
      if name ∈ record.names then record.names
      else record.names ++ [name] := by
  rw [withField]
  by_cases present : name ∈ record.names
  · rw [if_pos (fieldOf_isSome.mpr present), if_pos present, names, names,
      List.map_map]
    apply List.map_congr_left
    intro field _
    rw [Function.comp_apply]
    split
    · next same => exact same.symm
    · rfl
  · rw [if_neg (mt fieldOf_isSome.mp present), if_neg present, names, names,
      List.map_append]
    rfl

theorem fieldOf_set (record : Record) (name : String) (value : Json)
    (other : String) :
    fieldOf
        (record.map fun field =>
          if field.1 = name then (name, value) else field) other =
      if other = name then (fieldOf record name).map fun _ => value
      else fieldOf record other := by
  induction record with
  | nil => exact (ite_self none).symm
  | cons field record induction =>
      rw [List.map_cons, fieldOf_cons, induction, fieldOf_cons, fieldOf_cons]
      by_cases same : field.1 = name
      · by_cases isName : other = name
        · simp [same, isName]
        · have isOther : name ≠ other := Ne.symm isName
          simp [same, isName, isOther]
      · by_cases isName : other = name
        · simp [same, isName]
        · simp [same, isName]

/-- The field that is set has the value, others are as they were. -/
theorem fieldOf_withField (record : Record) (name : String) (value : Json)
    (other : String) :
    fieldOf (record.withField name value) other =
      if other = name then some value else fieldOf record other := by
  rw [withField]
  split
  · next present =>
      obtain ⟨old, isOld⟩ := Option.isSome_iff_exists.mp present
      rw [fieldOf_set, isOld]
      rfl
  · next absent =>
      rw [Option.not_isSome_iff_eq_none] at absent
      rw [fieldOf, List.find?_append, Option.map_or, ← fieldOf, ← fieldOf,
        fieldOf_cons]
      by_cases isName : name = other
      · rw [if_pos isName, ← isName, absent, if_pos rfl]
        rfl
      · rw [if_neg isName, if_neg (Ne.symm isName)]
        exact Option.or_none

/-- Distinct names stay distinct. -/
theorem nodup_withField {record : Record} (distinct : record.names.Nodup)
    (name : String) (value : Json) :
    (record.withField name value).names.Nodup := by
  rw [names_withField]
  split
  · exact distinct
  · next new => exact List.nodup_append.mpr ⟨distinct, by simp, by
      rintro other member last isLast rfl
      rw [List.mem_singleton] at isLast
      exact new (isLast ▸ member)⟩

/-! ## Setting fields -/

theorem update_cons (record : Record) (field : String × Json)
    (fields : Record) :
    record.update (field :: fields) =
      (record.withField field.1 field.2).update fields :=
  rfl

theorem update_append (record fields others : Record) :
    record.update (fields ++ others) = (record.update fields).update others :=
  List.foldl_append

/-- Names that are not set have their values. -/
theorem fieldOf_update {record fields : Record} {name : String}
    (others : name ∉ fields.names) :
    fieldOf (record.update fields) name = fieldOf record name := by
  induction fields generalizing record with
  | nil => rfl
  | cons field fields induction =>
      rw [names, List.map_cons, List.mem_cons, not_or] at others
      rw [update_cons, induction others.2, fieldOf_withField,
        if_neg others.1]

/-- Of distinct names, the values that are set come first. -/
theorem fieldOf_update_distinct {record fields : Record}
    (distinct : fields.names.Nodup) (name : String) :
    fieldOf (record.update fields) name =
      (fieldOf fields name).or (fieldOf record name) := by
  induction fields generalizing record with
  | nil => rfl
  | cons field fields induction =>
      rw [names, List.map_cons, List.nodup_cons] at distinct
      rw [update_cons, induction distinct.2, fieldOf_withField, fieldOf_cons]
      by_cases isName : field.1 = name
      · have absent : fieldOf fields name = none := by
          rw [← Option.not_isSome_iff_eq_none, fieldOf_isSome, ← isName]
          exact distinct.1
        rw [if_pos isName.symm, if_pos isName, absent]
        rfl
      · rw [if_neg (Ne.symm isName), if_neg isName]

/-- A value stays that is only set to itself. -/
theorem fieldOf_update_same {record fields : Record} {name : String}
    {value : Json} (kept : fieldOf record name = some value)
    (same : ∀ field ∈ fields, field.1 = name → field.2 = value) :
    fieldOf (record.update fields) name = some value := by
  induction fields generalizing record with
  | nil => exact kept
  | cons field fields induction =>
      rw [List.forall_mem_cons] at same
      rw [update_cons]
      apply induction _ same.2
      rw [fieldOf_withField]
      split
      · next isName => rw [same.1 isName.symm]
      · exact kept

theorem withField_same {record : Record} {name : String} {value : Json}
    (distinct : record.names.Nodup)
    (found : fieldOf record name = some value) :
    record.withField name value = record := by
  rw [withField, found]
  show record.map _ = record
  conv_rhs => rw [← List.map_id record]
  apply List.map_congr_left
  intro field member
  split
  · next isName =>
      have same := List.inj_on_of_nodup_map distinct
        (mem_of_fieldOf found) member isName.symm
      exact same
  · rfl

theorem withField_withField (record : Record) (name : String)
    (value last : Json) :
    (record.withField name value).withField name last =
      record.withField name last := by
  have present :
      (fieldOf (record.withField name value) name).isSome = true := by
    rw [fieldOf_withField, if_pos rfl]
    rfl
  rw [withField, if_pos present, withField, withField]
  split
  · rw [List.map_map]
    apply List.map_congr_left
    intro field _
    by_cases isName : field.1 = name
    · simp [isName]
    · simp [isName]
  · next absent =>
      rw [fieldOf_isSome] at absent
      rw [List.map_append, List.map_singleton, if_pos rfl]
      congr 1
      conv_rhs => rw [← List.map_id record]
      apply List.map_congr_left
      intro field member
      rw [if_neg]
      · rfl
      · rintro rfl
        exact absent (List.mem_map_of_mem member)

theorem nodup_update {record : Record} (distinct : record.names.Nodup)
    (fields : Record) : (record.update fields).names.Nodup := by
  induction fields generalizing record with
  | nil => exact distinct
  | cons field fields induction =>
      exact induction (nodup_withField distinct _ _)

/-- A property of the fields that are set and of those kept. -/
theorem forall_update {record fields : Record}
    {holds : String × Json → Prop} (kept : ∀ field ∈ record, holds field)
    (set : ∀ field ∈ fields, holds field) :
    ∀ field ∈ record.update fields, holds field := by
  induction fields generalizing record with
  | nil => exact kept
  | cons field fields induction =>
      rw [List.forall_mem_cons] at set
      apply induction _ set.2
      intro other member
      rcases mem_withField.mp member with rfl | ⟨old, _⟩
      · exact set.1
      · exact kept other old

/-- Defaults of distinct names set the fields that are missing. -/
theorem foldl_setDefault {record : Record} (fields : Record)
    (distinct : fields.names.Nodup) :
    fields.foldl
        (fun record field => record.setDefault field.1 field.2) record =
      record.update
        (fields.filter fun field => (fieldOf record field.1).isNone) := by
  induction fields generalizing record with
  | nil => rfl
  | cons field fields induction =>
      rw [names, List.map_cons, List.nodup_cons] at distinct
      rw [List.foldl_cons, setDefault]
      split
      · next present =>
          have kept : ¬ (fieldOf record field.1).isNone = true := by
            rw [Option.isNone_iff_eq_none]
            exact Option.isSome_iff_ne_none.mp present
          rw [List.filter_cons, if_neg kept, induction distinct.2]
      · next absent =>
          have front :
              record ++ [(field.1, field.2)] =
                record.withField field.1 field.2 :=
            (if_neg absent).symm
          rw [List.filter_cons, if_pos (by simpa using absent), update_cons,
            front, induction distinct.2]
          congr 1
          apply List.filter_congr
          intro other member
          rw [fieldOf_withField, if_neg]
          rintro same
          exact distinct.1 (same ▸ List.mem_map_of_mem member)

end Record

end AgentSchedBench.Trace
