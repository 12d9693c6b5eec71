import Mathlib.Data.List.Nodup
import ObjectQuery.Model.Build
import ObjectQuery.Proofs.Document.JsonText
/-!
# Definitions as documents

A definition is written as a record of its fields, without those that it leaves open. Whoever reads the
record finds every field again, and the defaults of what is missing are what was left open.
-/
namespace ObjectQuery

open Document

namespace Document

/-! ## Records of fields that may be absent -/

/-- The members for the fields that have a value. -/
def present (fields : List (String × Option Value)) : List (String × Value) :=
  fields.flatMap fun field => (field.2.map (field.1, ·)).toList

/-- The names of the options that have no value. -/
def absent (options : List (String × Option String)) : List String :=
  (options.filter (·.2.isNone)).map Prod.fst

/-- The value is a record of just those fields that are not left out, in the order of the names, and
none of them is null. -/
def Value.States (names leftOut : List String) (value : Value) : Prop :=
  ∃ members, value = .record members ∧ members.map Prod.fst = names.filter (· ∉ leftOut) ∧
    ∀ member ∈ members, member.2 ≠ .null

variable {fields : List (String × Option Value)}

/-- The absent options are those without a text. -/
theorem mem_absent {options : List (String × Option String)} {name : String} :
    name ∈ absent options ↔ (name, none) ∈ options := by
  simp [absent]

/-- The members a record is written with are the fields that have a value. -/
theorem mem_present {member : String × Value} :
    member ∈ present fields ↔ (member.1, some member.2) ∈ fields := by
  obtain ⟨name, value⟩ := member
  simp only [present, List.mem_flatMap, Option.mem_toList, Option.map_eq_some_iff, Prod.mk.injEq]
  constructor
  · rintro ⟨⟨_, _⟩, listed, _, rfl, rfl, rfl⟩
    exact listed
  · exact fun listed => ⟨_, listed, value, rfl, rfl, rfl⟩

/-- A record is written with the names of the fields that have a value, in order. -/
theorem names_present :
    (present fields).map Prod.fst = (fields.filter (·.2.isSome)).map Prod.fst := by
  induction fields with
  | nil => rfl
  | cons field rest inductionHypothesis =>
    obtain ⟨name, _ | value⟩ := field
    · exact inductionHypothesis
    · exact congrArg (name :: ·) inductionHypothesis

/-- A record states every field but those left out. -/
theorem states_present {leftOut : List String}
    (without : ∀ field ∈ fields, field.1 ∈ leftOut ↔ field.2 = none)
    (given : ∀ field ∈ fields, field.2 ≠ some .null) :
    (Value.record (present fields)).States (fields.map Prod.fst) leftOut := by
  refine ⟨_, rfl, ?_, fun member listed null => ?_⟩
  · rw [names_present, List.filter_map]
    refine congrArg _ (List.filter_congr fun field listed => ?_)
    rw [Function.comp_apply, Bool.eq_iff_iff, decide_eq_true_iff, without field listed,
      Option.isSome_iff_ne_none]
  · exact given _ (mem_present.mp listed) (congrArg some null)

/-- A record of values without numbers holds no number. -/
theorem isNumberless_present (each : ∀ field ∈ fields, ∀ value ∈ field.2, value.IsNumberless) :
    (Value.record (present fields)).IsNumberless :=
  .record fun _ listed => each _ (mem_present.mp listed) _ rfl

/-- A field is found with its value if it has one. -/
theorem lookup_present (distinct : (fields.map Prod.fst).Nodup) (name : String) :
    (present fields).lookup name = (fields.lookup name).join := by
  induction fields with
  | nil => rfl
  | cons field rest inductionHypothesis =>
    obtain ⟨other, value⟩ := field
    rw [List.map_cons, List.nodup_cons] at distinct
    have behind := inductionHypothesis distinct.2
    by_cases same : name = other
    · subst same
      have absent : rest.lookup name = none := by
        rw [List.lookup_eq_none_iff]
        rintro ⟨key, content⟩ listed
        rw [bne_iff_ne]
        rintro rfl
        exact distinct.1 (List.mem_map.mpr ⟨_, listed, rfl⟩)
      cases value with
      | none =>
        rw [absent] at behind
        simpa [present] using behind
      | some value => simp [present]
    · have different : (name == other) = false := by simpa using same
      cases value with
      | none => simpa [List.lookup_cons, different, present] using behind
      | some value => simpa [List.lookup_cons, different, present] using behind

/-- A record of distinct fields is read field by field. -/
theorem fields?_present (distinct : (fields.map Prod.fst).Nodup) (format : Format)
    (names : List String) : (Value.record (present fields)).fields? format names =
      some fun name => (fields.lookup name).join := by
  have names_sublist : ((present fields).map Prod.fst).Sublist (fields.map Prod.fst) := by
    rw [names_present]
    exact List.filter_sublist.map _
  have once : ∀ name ∈ names, ((present fields).filter (·.1 == name)).length ≤ 1 := by
    intro name _
    have count := List.nodup_iff_count_le_one.mp (distinct.sublist names_sublist) name
    rwa [List.count, List.countP_map, List.countP_eq_length_filter] at count
  rw [Value.fields?, if_pos (by simpa using once)]
  simp only [lookup_present distinct]

/-! ## Kinds of fields -/

/-- A text that may be absent is no number. -/
theorem isNumberless_option (option : Option String) :
    ∀ value ∈ option.map Value.text, value.IsNumberless := by
  cases option with
  | none => exact fun _ none => absurd none (Option.not_mem_none _)
  | some content =>
    rintro _ ⟨⟩
    exact .text content

/-- A list of values without numbers holds no number. -/
theorem isNumberless_list {α : Type} {write : α → Value} (each : ∀ item, (write item).IsNumberless)
    (items : List α) : (Value.list (items.map write)).IsNumberless := by
  refine .list fun value listed => ?_
  obtain ⟨item, _, rfl⟩ := List.mem_map.mp listed
  exact each item

/-- A text is read back as itself. -/
theorem text?_text (content : String) : Value.text? (.text content) = some content := rfl

namespace Fields

variable {record : Fields} {name : String} {value : Value} {α : Type}

/-- A required member that is there is read by its reader. -/
theorem required_present {read : Value → Option α} (given : record name = some value) :
    record.required name read = read value := by
  rw [required, given, Option.bind_some]

/-- A member that is there is read whatever its default is. -/
theorem withDefault_present {default : α} {read : Value → Option α}
    (given : record name = some value) : record.withDefault name default read = read value := by
  rw [withDefault, given]

/-- A text that may be absent is read back as it was given. -/
theorem optionalText_present {content : Option String} (given : record name = content.map .text) :
    record.optionalText name = some content := by
  cases content with
  | none => rw [optionalText, given]; rfl
  | some content => rw [optionalText, given]; rfl

/-- A list is read back if each of its items is. -/
theorem listOf_present {read : Value → Option α} {write : α → Value} {items : List α}
    (given : record name = some (.list (items.map write)))
    (back : ∀ item, read (write item) = some item) : record.listOf name read = some items := by
  rw [listOf, withDefault_present given]
  exact mapM_written back items

end Fields
end Document

/-! ## Attributes and further tables -/

variable (format : Format)

namespace AttributeDefinition

/-- The fields of an attribute with their values. -/
def fields (definition : AttributeDefinition) : List (String × Option Value) :=
  [("name", some (.text definition.name)), ("type", some (.text definition.type)),
   ("column", definition.column.map .text), ("foreign_key", definition.foreignKey.map .text),
   ("index_column", definition.indexColumn.map .text)]

/-- The options of an attribute. -/
def options (definition : AttributeDefinition) : List (String × Option String) :=
  [("column", definition.column), ("foreign_key", definition.foreignKey),
   ("index_column", definition.indexColumn)]

/-- An attribute is written as the record of its present fields. -/
theorem toValue_eq (definition : AttributeDefinition) :
    definition.toValue = .record (present definition.fields) := by
  simp [toValue, present, fields, optionalMember, Function.comp_def]

/-- An attribute states each of its fields, the options only where they are given. -/
theorem states_toValue (definition : AttributeDefinition) :
    definition.toValue.States fieldNames (absent definition.options) := by
  rw [toValue_eq]
  refine states_present ?_ ?_
  · simp [fields, options, mem_absent, eq_comm]
  · simp [fields]

/-- An attribute is written without numbers. -/
theorem isNumberless_toValue (definition : AttributeDefinition) :
    definition.toValue.IsNumberless := by
  rw [toValue_eq]
  refine isNumberless_present ?_
  simp only [fields, List.forall_mem_cons]
  exact ⟨isNumberless_option (some _), isNumberless_option (some _), isNumberless_option _,
    isNumberless_option _, isNumberless_option _, List.forall_mem_nil _⟩

/-- An attribute is read back as it was written. -/
theorem ofValue?_toValue (definition : AttributeDefinition) :
    ofValue? format definition.toValue = some definition := by
  have distinct : (definition.fields.map Prod.fst).Nodup := by simp [fields]
  rw [ofValue?, toValue_eq, fields?_present distinct, Option.bind_eq_bind, Option.bind_some,
    Fields.required_present rfl, Fields.required_present rfl, Fields.optionalText_present rfl,
    Fields.optionalText_present rfl, Fields.optionalText_present rfl]
  rfl

end AttributeDefinition

namespace SecondaryTableDefinition

/-- The fields of a further table with their values. -/
def fields (definition : SecondaryTableDefinition) : List (String × Option Value) :=
  [("name", some (.text definition.name)), ("key_column", some (.text definition.keyColumn)),
   ("attributes", some (.list (definition.attributes.map .text))),
   ("optional", some (.boolean definition.optional))]

/-- A secondary table is written as the record of its fields. -/
theorem toValue_eq (definition : SecondaryTableDefinition) :
    definition.toValue = .record (present definition.fields) := rfl

/-- A secondary table states each of its fields. -/
theorem states_toValue (definition : SecondaryTableDefinition) :
    definition.toValue.States fieldNames [] := by
  rw [toValue_eq]
  refine states_present ?_ ?_
  · simp [fields]
  · simp [fields]

/-- A secondary table is written without numbers. -/
theorem isNumberless_toValue (definition : SecondaryTableDefinition) :
    definition.toValue.IsNumberless := by
  rw [toValue_eq]
  refine isNumberless_present ?_
  simp only [fields, List.forall_mem_cons]
  refine ⟨isNumberless_option (some _), isNumberless_option (some _), ?attributes, ?optional,
    List.forall_mem_nil _⟩
  case attributes =>
    rintro _ ⟨⟩
    exact isNumberless_list .text _
  case optional =>
    rintro _ ⟨⟩
    exact .boolean _

/-- A secondary table is read back as it was written. -/
theorem ofValue?_toValue (definition : SecondaryTableDefinition) :
    ofValue? format definition.toValue = some definition := by
  have distinct : (definition.fields.map Prod.fst).Nodup := by simp [fields]
  have attributes : (Value.list (definition.attributes.map .text)).list?.bind (·.mapM Value.text?) =
      some definition.attributes := mapM_written text?_text definition.attributes
  rw [ofValue?, toValue_eq, fields?_present distinct, Option.bind_eq_bind, Option.bind_some,
    Fields.required_present rfl, Fields.withDefault_present rfl, Fields.required_present rfl,
    Fields.withDefault_present rfl, attributes]
  rfl

end SecondaryTableDefinition

/-! ## Entities and models -/

namespace EntityDefinition

/-- The fields of an entity with their values. -/
def fields (definition : EntityDefinition) : List (String × Option Value) :=
  [("name", some (.text definition.name)), ("class", definition.className.map .text),
   ("extends", definition.superType.map .text),
   ("implements", some (.list (definition.interfaces.map .text))),
   ("table", definition.table.map .text), ("key_column", some (.text definition.keyColumn)),
   ("attribute", some (.list (definition.attributes.map (·.toValue)))),
   ("secondary_table", some (.list (definition.secondaryTables.map (·.toValue))))]

/-- The options of an entity. -/
def options (definition : EntityDefinition) : List (String × Option String) :=
  [("class", definition.className), ("extends", definition.superType), ("table", definition.table)]

/-- An entity is written as the record of its present fields. -/
theorem toValue_eq (definition : EntityDefinition) :
    definition.toValue = .record (present definition.fields) := by
  simp [toValue, present, fields, optionalMember, Function.comp_def]

/-- An entity states each of its fields, the options only where they are given. -/
theorem states_toValue (definition : EntityDefinition) :
    definition.toValue.States fieldNames (absent definition.options) := by
  rw [toValue_eq]
  refine states_present ?_ ?_
  · simp [fields, options, mem_absent, eq_comm]
  · simp [fields]

/-- An entity is written without numbers. -/
theorem isNumberless_toValue (definition : EntityDefinition) : definition.toValue.IsNumberless := by
  rw [toValue_eq]
  refine isNumberless_present ?_
  simp only [fields, List.forall_mem_cons]
  refine ⟨isNumberless_option (some _), isNumberless_option _, isNumberless_option _, ?interfaces,
    isNumberless_option _, isNumberless_option (some _), ?attributes, ?tables, List.forall_mem_nil _⟩
  case interfaces =>
    rintro _ ⟨⟩
    exact isNumberless_list .text _
  case attributes =>
    rintro _ ⟨⟩
    exact isNumberless_list AttributeDefinition.isNumberless_toValue _
  case tables =>
    rintro _ ⟨⟩
    exact isNumberless_list SecondaryTableDefinition.isNumberless_toValue _

/-- An entity is read back as it was written. -/
theorem ofValue?_toValue (definition : EntityDefinition) :
    ofValue? format definition.toValue = some definition := by
  have distinct : (definition.fields.map Prod.fst).Nodup := by simp [fields]
  rw [ofValue?, toValue_eq, fields?_present distinct, Option.bind_eq_bind, Option.bind_some,
    Fields.required_present rfl, Fields.optionalText_present rfl, Fields.optionalText_present rfl,
    Fields.listOf_present rfl text?_text, Fields.optionalText_present rfl,
    Fields.withDefault_present rfl,
    Fields.listOf_present rfl (AttributeDefinition.ofValue?_toValue format),
    Fields.listOf_present rfl (SecondaryTableDefinition.ofValue?_toValue format)]
  rfl

end EntityDefinition

namespace ModelDefinition

/-- The fields of a model with their values. -/
def fields (definition : ModelDefinition) : List (String × Option Value) :=
  [("entity", some (.list (definition.entities.map (·.toValue))))]

/-- A model is written as the record of its entities. -/
theorem toValue_eq (definition : ModelDefinition) :
    definition.toValue = .record (present definition.fields) := rfl

/-- A model states its entities and nothing else. -/
theorem states_toValue (definition : ModelDefinition) : definition.toValue.States ["entity"] [] := by
  rw [toValue_eq]
  refine states_present ?_ ?_
  · simp [fields]
  · simp [fields]

/-- A model is written without numbers. -/
theorem isNumberless_toValue (definition : ModelDefinition) : definition.toValue.IsNumberless := by
  rw [toValue_eq]
  refine isNumberless_present ?_
  simp only [fields, List.forall_mem_cons]
  refine ⟨?_, List.forall_mem_nil _⟩
  rintro _ ⟨⟩
  exact isNumberless_list EntityDefinition.isNumberless_toValue _

/-- A model is read back as it was written. -/
theorem ofValue?_toValue (definition : ModelDefinition) :
    ofValue? format definition.toValue = some definition := by
  have distinct : (definition.fields.map Prod.fst).Nodup := by simp [fields]
  rw [ofValue?, toValue_eq, fields?_present distinct, Option.bind_eq_bind, Option.bind_some,
    Fields.listOf_present rfl (EntityDefinition.ofValue?_toValue format)]
  rfl

/-- The compact text of a model is read back as the model. -/
theorem readDefinitions_compact (definition : ModelDefinition) :
    Model.readDefinitions .json (Json.compact definition.toValue) = .ok definition := by
  have read : Format.json.read? (Json.compact definition.toValue) = some definition.toValue :=
    Json.read?_compact definition.isNumberless_toValue
  rw [Model.readDefinitions, read, Option.bind_some, ofValue?_toValue]

/-- A definition is written with all its fields apart from the options that it leaves open, and both
the document and its text are read as the definition that was written. So a text that has been read
can be written and read once more without any difference. -/
theorem reads_what_is_written :
    (∀ definition : ModelDefinition,
      ofValue? .json definition.toValue = some definition ∧
      Model.readDefinitions .json (Json.compact definition.toValue) = .ok definition) ∧
    (∀ text, (do
        let definition ← Model.readDefinitions .json text
        Model.readDefinitions .json (Json.compact definition.toValue)) =
      Model.readDefinitions .json text) ∧
    (∀ definition : ModelDefinition, definition.toValue.States ["entity"] []) ∧
    (∀ definition : EntityDefinition,
      definition.toValue.States EntityDefinition.fieldNames (absent definition.options)) ∧
    (∀ definition : AttributeDefinition,
      definition.toValue.States AttributeDefinition.fieldNames (absent definition.options)) ∧
    ∀ definition : SecondaryTableDefinition,
      definition.toValue.States SecondaryTableDefinition.fieldNames [] := by
  refine ⟨fun definition => ⟨definition.ofValue?_toValue .json, definition.readDefinitions_compact⟩,
    fun text => ?again, states_toValue, EntityDefinition.states_toValue,
    AttributeDefinition.states_toValue, SecondaryTableDefinition.states_toValue⟩
  case again =>
    cases Model.readDefinitions .json text with
    | error error => rfl
    | ok definition => exact definition.readDefinitions_compact

end ModelDefinition

end ObjectQuery
