import Mathlib.Logic.Basic
import ApiWorkshop.Proofs.Api.Completed
import ApiWorkshop.Proofs.Entries.Grouped
import ApiWorkshop.Proofs.OpenApi.Operations

/-!
# The values in a document

Besides texts and truth values a document holds exactly the values that stand in
the notes of its API: choices, fallbacks and samples of schemas, of the fields
inside them, and of parameters.
-/

namespace ApiWorkshop

/-- The values that notes give. -/
def Notes.values (notes : Notes) : List Value :=
  notes.choices.getD [] ++ notes.fallback.toList ++ notes.sample.toList

/-- What a schema says about itself. -/
def Schema.notes (schema : Schema) : Notes :=
  { sample := schema.sample, choices := schema.choices }

/-- Notes that stand somewhere in an API. -/
inductive Api.Annotates (api : Api) : Notes → Prop
  | schema {name : String} {schema : Schema} (isSchema : (name, schema) ∈ api.schemas) :
      Annotates api schema.notes
  | field {name : String} {schema : Schema} {field : Field}
      (isSchema : (name, schema) ∈ api.schemas) (holds : schema.Holds field) :
      Annotates api field.notes
  | parameter {endpoint : Endpoint} {name : String} {parameter : Parameter}
      (isEndpoint : endpoint ∈ api.endpoints)
      (isParameter : (name, parameter) ∈ endpoint.pathParameters ++ endpoint.query) :
      Annotates api parameter.notes

/-- All scalars of all values of notes obey a rule. -/
def Notes.All (rule : Scalar → Prop) (notes : Notes) : Prop :=
  ∀ value ∈ notes.values, value.All rule

/-- A rule that speaks neither of texts nor of truth values. -/
structure Scalar.Spares (rule : Scalar → Prop) : Prop where
  text : ∀ text, rule (.string text)
  bool : ∀ part, rule (.bool part)

namespace OpenApi

section Rules

variable {rule : Scalar → Prop}

/-! ## Entries -/

/-- All scalars in the values of entries obey a rule. -/
def EntriesAll (rule : Scalar → Prop) (entries : List (String × Value)) : Prop :=
  ∀ entry ∈ entries, entry.2.All rule

@[simp]
theorem entriesAll_nil : EntriesAll rule [] :=
  nofun

@[simp]
theorem entriesAll_cons_iff {key : String} {value : Value} {entries : List (String × Value)} :
    EntriesAll rule ((key, value) :: entries) ↔ value.All rule ∧ EntriesAll rule entries :=
  List.forall_mem_cons

@[simp]
theorem entriesAll_append_iff {first second : List (String × Value)} :
    EntriesAll rule (first ++ second) ↔ EntriesAll rule first ∧ EntriesAll rule second :=
  List.forall_mem_append

@[simp]
theorem all_table_iff_entriesAll {entries : List (String × Value)} :
    (Value.table entries).All rule ↔ EntriesAll rule entries :=
  Value.all_table_iff

theorem entriesAll_textEntry (spares : Scalar.Spares rule) (key : String) (text : Option String) :
    EntriesAll rule (textEntry key text) := by
  cases text with
  | none => exact entriesAll_nil
  | some text =>
      rw [textEntry]
      split
      · exact entriesAll_nil
      · exact entriesAll_cons_iff.mpr ⟨.scalar (spares.text text), entriesAll_nil⟩

theorem all_stringsValue (spares : Scalar.Spares rule) (texts : List String) :
    (stringsValue texts).All rule :=
  .array (List.forall_mem_map.mpr fun text _ => .scalar (spares.text text))

theorem entriesAll_annotations_iff {choices : Option (List Value)} {fallback sample : Option Value} :
    EntriesAll rule (annotations choices fallback sample) ↔
      ∀ value ∈ choices.getD [] ++ fallback.toList ++ sample.toList, value.All rule := by
  have given (key : String) (value : Option Value) :
      EntriesAll rule (value.toList.map fun found => (key, found)) ↔
        ∀ found ∈ value.toList, found.All rule := List.forall_mem_map
  have listed : EntriesAll rule (choices.toList.map fun found => ("enum", .array found)) ↔
      ∀ found ∈ choices.getD [], found.All rule := by
    cases choices with
    | none => simp
    | some choices => simp
  rw [annotations, entriesAll_append_iff, entriesAll_append_iff, given, given, listed,
    List.forall_mem_append, List.forall_mem_append]

theorem entriesAll_noteAnnotations_iff {notes : Notes} :
    EntriesAll rule (noteAnnotations notes) ↔ notes.All rule :=
  entriesAll_annotations_iff

theorem entriesAll_noteEntries_iff (spares : Scalar.Spares rule) {notes : Notes} :
    EntriesAll rule (noteEntries notes) ↔ notes.All rule := by
  rw [noteEntries, entriesAll_append_iff, entriesAll_append_iff, entriesAll_noteAnnotations_iff]
  simp [entriesAll_textEntry spares]

theorem entriesAll_typeEntry_iff (spares : Scalar.Spares rule) {name : String}
    {entries : List (String × Value)} :
    EntriesAll rule (typeEntry name :: entries) ↔ EntriesAll rule entries :=
  entriesAll_cons_iff.trans (and_iff_right (.scalar (spares.text name)))

theorem entriesAll_reference (spares : Scalar.Spares rule) (schema : String) :
    EntriesAll rule (reference schema) :=
  entriesAll_cons_iff.mpr ⟨.scalar (spares.text _), entriesAll_nil⟩

theorem entriesAll_objectEntries_iff (spares : Scalar.Spares rule)
    {properties : List (String × Value)} {required : List String} :
    EntriesAll rule (objectEntries properties required) ↔ EntriesAll rule properties := by
  have isList : EntriesAll rule
      (if required.isEmpty then [] else [("required", stringsValue required)]) := by
    split
    · exact entriesAll_nil
    · exact entriesAll_cons_iff.mpr ⟨all_stringsValue spares required, entriesAll_nil⟩
  rw [objectEntries, entriesAll_append_iff, and_iff_left isList, entriesAll_typeEntry_iff spares,
    entriesAll_cons_iff, and_iff_left entriesAll_nil, all_table_iff_entriesAll]

/-! ## Fields -/

mutual

/-- The values in the schema of a field are those of the notes inside the field. -/
theorem all_fieldValue_iff (spares : Scalar.Spares rule) :
    ∀ {field : Field}, (fieldValue field).All rule ↔
      ∀ inner : Field, inner.Inside field → inner.notes.All rule
  | .primitive type notes => by
      rw [Field.forall_inside_leaf_iff rfl, fieldValue, all_table_iff_entriesAll,
        entriesAll_typeEntry_iff spares, entriesAll_noteEntries_iff spares]
      rfl
  | .anyArray notes => by
      rw [Field.forall_inside_leaf_iff rfl, fieldValue, all_table_iff_entriesAll,
        entriesAll_typeEntry_iff spares, entriesAll_noteEntries_iff spares]
      rfl
  | .array item notes => by
      rw [Field.forall_inside_array_iff, fieldValue, all_table_iff_entriesAll,
        entriesAll_typeEntry_iff spares, entriesAll_cons_iff, entriesAll_noteEntries_iff spares,
        all_fieldValue_iff spares]
      exact and_comm
  | .object properties required notes => by
      rw [Field.forall_inside_object_iff, fieldValue, all_table_iff_entriesAll,
        entriesAll_append_iff, entriesAll_objectEntries_iff spares,
        entriesAll_noteEntries_iff spares, entriesAll_fieldValues_iff spares]
      exact and_comm
  | .reference schema notes => by
      rw [Field.forall_inside_leaf_iff rfl, fieldValue, all_table_iff_entriesAll,
        entriesAll_append_iff, entriesAll_append_iff, entriesAll_noteAnnotations_iff,
        and_iff_right ⟨entriesAll_reference spares schema, entriesAll_textEntry spares _ _⟩]
      rfl

theorem entriesAll_fieldValues_iff (spares : Scalar.Spares rule) :
    ∀ {fields : List (String × Field)}, EntriesAll rule (fieldValues fields) ↔
      ∀ entry ∈ fields, ∀ inner : Field, inner.Inside entry.2 → inner.notes.All rule
  | [] => by simp [fieldValues]
  | (name, field) :: fields => by
      rw [fieldValues, entriesAll_cons_iff, List.forall_mem_cons, all_fieldValue_iff spares,
        entriesAll_fieldValues_iff spares]

end

/-! ## Schemas -/

/-- The values in the schema of a regular declaration. -/
theorem all_schemaValue_iff (spares : Scalar.Spares rule) {schema : Schema}
    (isObject : schema.fields ≠ [] → schema.type = .object)
    (isArray : schema.items ≠ none → schema.type = .array) :
    (schemaValue schema).All rule ↔
      schema.notes.All rule ∧ ∀ field, schema.Holds field → field.notes.All rule := by
  have holds : (∀ field, schema.Holds field → field.notes.All rule) ↔
      (∀ entry ∈ schema.fields, ∀ field : Field, field.Inside entry.2 → field.notes.All rule) ∧
        ∀ item ∈ schema.items, ∀ field : Field, field.Inside item → field.notes.All rule := by
    constructor
    · exact fun obey => ⟨fun entry isEntry field inside => obey field (.inl ⟨entry, isEntry, inside⟩),
        fun item isItem field inside => obey field (.inr ⟨item, isItem, inside⟩)⟩
    · rintro ⟨fields, items⟩ field (⟨entry, isEntry, inside⟩ | ⟨item, isItem, inside⟩)
      · exact fields entry isEntry field inside
      · exact items item isItem field inside
  have shape : EntriesAll rule (schemaShape schema) ↔
      (∀ entry ∈ schema.fields, ∀ field : Field, field.Inside entry.2 → field.notes.All rule) ∧
        ∀ item ∈ schema.items, ∀ field : Field, field.Inside item → field.notes.All rule := by
    have noFields : schema.type ≠ .object → schema.fields = [] := not_imp_comm.mp isObject
    have noItems : schema.type ≠ .array → schema.items = none := not_imp_comm.mp isArray
    rw [schemaShape]
    cases isType : schema.type with
    | object =>
        rw [noItems (by simp [isType]), entriesAll_objectEntries_iff spares,
          entriesAll_fieldValues_iff spares]
        simp
    | array =>
        rw [noFields (by simp [isType]), List.cons_append, entriesAll_typeEntry_iff spares,
          entriesAll_append_iff, and_iff_left (entriesAll_textEntry spares _ _)]
        cases schema.items with
        | none => simp
        | some item => simp [all_fieldValue_iff spares]
    | primitive type =>
        rw [noFields (by simp [isType]), noItems (by simp [isType]),
          entriesAll_typeEntry_iff spares]
        simp [entriesAll_textEntry spares]
  rw [schemaValue, all_table_iff_entriesAll, entriesAll_append_iff, entriesAll_append_iff,
    entriesAll_append_iff, shape, holds,
    and_iff_left (entriesAll_textEntry spares "title" schema.title),
    and_iff_left (entriesAll_textEntry spares "description" schema.description),
    entriesAll_annotations_iff]
  exact and_comm

/-! ## Operations -/

theorem all_parameterSchema_iff (spares : Scalar.Spares rule) {parameter : Parameter} :
    (parameterSchema parameter).All rule ↔ parameter.notes.All rule := by
  rw [parameterSchema, all_table_iff_entriesAll, entriesAll_append_iff, entriesAll_append_iff,
    entriesAll_noteAnnotations_iff]
  refine and_iff_right ⟨?_, entriesAll_textEntry spares _ _⟩
  cases parameter.type with
  | value type => exact (entriesAll_typeEntry_iff spares).mpr entriesAll_nil
  | reference schema => exact entriesAll_reference spares schema

theorem all_parameterValue_iff (spares : Scalar.Spares rule) {place : ParameterPlace}
    {entry : String × Parameter} :
    (parameterValue place entry).All rule ↔ entry.2.notes.All rule := by
  simp [parameterValue, entriesAll_textEntry spares, spares.text, spares.bool,
    all_parameterSchema_iff spares]

theorem forall_parameterValues_iff (spares : Scalar.Spares rule) {endpoint : Endpoint} :
    (∀ value ∈ parameterValues endpoint, value.All rule) ↔
      ∀ entry ∈ endpoint.pathParameters ++ endpoint.query, entry.2.notes.All rule := by
  rw [parameterValues, List.forall_mem_append, List.forall_mem_append, List.forall_mem_map,
    List.forall_mem_map]
  simp only [all_parameterValue_iff spares]

theorem all_bodyValue (spares : Scalar.Spares rule) (body : Body) : (bodyValue body).All rule := by
  simp [bodyValue, entriesAll_textEntry spares, spares.bool, entriesAll_reference spares]

/-- The values in an operation are those of its parameters. -/
theorem all_operationValue_iff (spares : Scalar.Spares rule) {endpoint : Endpoint} :
    (operationValue endpoint).All rule ↔
      ∀ entry ∈ endpoint.pathParameters ++ endpoint.query, entry.2.notes.All rule := by
  have tags : EntriesAll rule
      (if endpoint.tags.isEmpty then [] else [("tags", stringsValue endpoint.tags)]) := by
    split <;> simp [all_stringsValue spares]
  have deprecated : EntriesAll rule
      (if endpoint.deprecated then [("deprecated", .bool true)] else []) := by
    split <;> simp [spares.bool]
  have body : EntriesAll rule
      (endpoint.body.toList.map fun body => ("requestBody", bodyValue body)) := by
    cases endpoint.body <;> simp [all_bodyValue spares]
  have parameters : EntriesAll rule (if (parameterValues endpoint).isEmpty then [] else
      [("parameters", .array (parameterValues endpoint))]) ↔
        ∀ value ∈ parameterValues endpoint, value.All rule := by
    cases parameterValues endpoint <;> simp
  simp only [operationValue, all_table_iff_entriesAll, entriesAll_append_iff, tags, deprecated, body,
    parameters, entriesAll_textEntry spares, forall_parameterValues_iff spares, responses]
  simp [spares.text]

end Rules

/-- The operation of a table at a path under a key. -/
def operationAt (table : Entries String (Entries String Value)) (path key : String) :
    Option Value :=
  (Entries.get? path table).bind (Entries.get? key)

theorem key_injective {first second : Method} (same : first.key = second.key) : first = second := by
  cases first <;> cases second <;> first | rfl | contradiction

section Endpoints

variable {endpoints : List Endpoint}

theorem nodup_path_key
    (distinct : (endpoints.map fun endpoint => (endpoint.method, endpoint.path)).Nodup) :
    (endpoints.map fun endpoint => (endpoint.path, endpoint.method.key)).Nodup := by
  have injective : Function.Injective fun key : Method × String => (key.2, key.1.key) := by
    rintro ⟨first, path⟩ ⟨second, other⟩ same
    obtain ⟨samePath, sameKey⟩ := Prod.mk.inj same
    exact Prod.ext (key_injective sameKey) samePath
  simpa [Function.comp_def] using distinct.map injective

theorem operations_eq_grouped
    (distinct : (endpoints.map fun endpoint => (endpoint.method, endpoint.path)).Nodup) :
    operations endpoints =
      Entries.grouped Endpoint.path (fun endpoint => endpoint.method.key) operationValue endpoints :=
  Entries.foldl_put_eq_grouped (nodup_path_key distinct)

/-- Endpoints that differ in method or path all have their operations in the
table. -/
theorem operationAt_operations
    (distinct : (endpoints.map fun endpoint => (endpoint.method, endpoint.path)).Nodup) :
    ∀ endpoint ∈ endpoints, operationAt (operations endpoints) endpoint.path endpoint.method.key =
      some (operationValue endpoint) := by
  intro endpoint member
  rw [operationAt, operations_eq_grouped distinct, Entries.get?_grouped,
    if_pos (List.mem_map_of_mem member), Option.bind_some]
  exact Entries.get?_of_mem (Entries.nodup_keys_group (nodup_path_key distinct) _)
    (Entries.mem_group member)

end Endpoints

section Rules

variable {rule : Scalar → Prop}

theorem entriesAll_operations_iff {endpoints : List Endpoint}
    (distinct : (endpoints.map fun endpoint => (endpoint.method, endpoint.path)).Nodup) :
    EntriesAll rule ((operations endpoints).map fun entry => (entry.1, .table entry.2)) ↔
      ∀ endpoint ∈ endpoints, (operationValue endpoint).All rule := by
  rw [EntriesAll, List.forall_mem_map]
  constructor
  · intro obey endpoint isEndpoint
    obtain ⟨methods, isMethods, isFound⟩ := Option.bind_eq_some_iff.mp
      (operationAt_operations distinct endpoint isEndpoint)
    exact all_table_iff_entriesAll.mp (obey _ (Entries.mem_of_get? isMethods)) _
      (Entries.mem_of_get? isFound)
  · intro obey entry isEntry
    refine all_table_iff_entriesAll.mpr fun found isFound => ?_
    obtain ⟨endpoint, isEndpoint, -, same⟩ :=
      comesFrom_operations endpoints entry isEntry found isFound
    exact same ▸ obey endpoint isEndpoint

/-- The values in a document, besides texts and truth values, are those of the notes
of the API. -/
theorem all_document_iff (spares : Scalar.Spares rule) {api : Api} (regular : api.Regular) :
    (document api).All rule ↔ ∀ notes, api.Annotates notes → notes.All rule := by
  have tags : EntriesAll rule
      (if api.tags.isEmpty then [] else [("tags", .array (api.tags.map tagValue))]) := by
    split
    · exact entriesAll_nil
    · refine entriesAll_cons_iff.mpr ⟨.array (List.forall_mem_map.mpr fun tag _ => ?_), entriesAll_nil⟩
      simp [tagValue, spares.text, entriesAll_textEntry spares]
  have schemas : EntriesAll rule (api.schemas.map fun entry => (entry.1, schemaValue entry.2)) ↔
      ∀ entry ∈ api.schemas, entry.2.notes.All rule ∧
        ∀ field, entry.2.Holds field → field.notes.All rule := by
    rw [EntriesAll, List.forall_mem_map]
    exact forall₂_congr fun entry isEntry => all_schemaValue_iff spares
      (regular.isObject entry isEntry) (regular.schemas entry isEntry).isArray
  have operations : EntriesAll rule
      ((operations api.endpoints).map fun entry => (entry.1, .table entry.2)) ↔
        ∀ endpoint ∈ api.endpoints, ∀ entry ∈ endpoint.pathParameters ++ endpoint.query,
          entry.2.notes.All rule :=
    (entriesAll_operations_iff regular.operations).trans
      (forall₂_congr fun endpoint _ => all_operationValue_iff spares)
  simp only [document, all_table_iff_entriesAll, entriesAll_append_iff, entriesAll_cons_iff, tags,
    entriesAll_textEntry spares, Value.all_scalar_iff, spares.text, schemas, operations,
    entriesAll_nil, and_true, true_and]
  constructor
  · rintro ⟨ofEndpoints, ofSchemas⟩ notes annotates
    cases annotates with
    | schema isSchema => exact (ofSchemas _ isSchema).1
    | field isSchema holds => exact (ofSchemas _ isSchema).2 _ holds
    | parameter isEndpoint isParameter => exact ofEndpoints _ isEndpoint _ isParameter
  · intro obey
    exact ⟨fun endpoint isEndpoint entry isParameter => obey _ (.parameter isEndpoint isParameter),
      fun entry isSchema => ⟨obey _ (.schema isSchema), fun field holds =>
        obey _ (.field isSchema holds)⟩⟩

end Rules

end OpenApi

end ApiWorkshop
