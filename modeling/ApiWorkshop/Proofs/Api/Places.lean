import ApiWorkshop.Proofs.Api.Shapes
import ApiWorkshop.Proofs.Entries.Exchanged

/-!
# Places in a document

An endpoint, a request body, a parameter, a field or a table of translations stands at
a place of a document.  When it is exchanged, everything that is read in front of the
place is read as before, and what is read at the place decides what becomes of the
whole document.
-/

namespace ApiWorkshop

/-- A relation between two runs of a reader that goes from a step to the steps around
it. -/
structure Propagation where
  Rel {α : Type} : Except Misplaced α → Except Misplaced α → Prop
  /-- Two runs that end in one fault are related. -/
  fault {α : Type} (found : Misplaced) : Rel (.error found : Except Misplaced α) (.error found)
  /-- Two runs are related if their first steps are and they go on alike. -/
  first {α β : Type} {step other : Except Misplaced α} {next : α → Except Misplaced β}
    (related : Rel step other) : Rel (step >>= next) (other >>= next)
  /-- Two runs with one first step are related if whatever follows it is. -/
  next {α β : Type} {step : Except Misplaced α} {next others : α → Except Misplaced β}
    (related : ∀ found, Rel (next found) (others found)) : Rel (step >>= next) (step >>= others)

namespace Extract

open Entry (Table)

/-! ## Places -/

/-- The second declaration is the first one with the field declaration at a place inside
it exchanged: the declaration itself, its items, a property, or one inside of these. -/
inductive FieldChanged (old new : Value) (place : KeyPath) : KeyPath → Value → Value → Prop
  | here : FieldChanged old new place place old new
  | items {path : KeyPath} {value other : Value} {entries others : Table}
      (exchanged : Entries.Exchanged "items" value other entries others)
      (inside : FieldChanged old new place (path.child "items") value other) :
      FieldChanged old new place path (.table entries) (.table others)
  | property {path : KeyPath} {name : String} {value other : Value}
      {properties otherProperties entries others : Table}
      (exchanged : Entries.Exchanged "properties" (.table properties) (.table otherProperties)
        entries others)
      (isProperty : Entries.Exchanged name value other properties otherProperties)
      (inside : FieldChanged old new place ((path.child "properties").child name) value other) :
      FieldChanged old new place path (.table entries) (.table others)

/-- Whether an entry of a schema table declares a field of the schema or its items,
whatever type the schema has. -/
def Declares (key : String) (value : Value) : Prop :=
  key = "items" ∨ ∀ type, isAttribute type (key, value) = false

/-- The second document is the first one with the field declaration at a place exchanged. -/
inductive FieldAt (old new : Value) (place : KeyPath) : Table → Table → Prop
  | intro {name key : String} {value other : Value} (declares : Declares key value)
      {entries others schemas otherSchemas document changed : Table}
      (inSchema : Entries.Exchanged key value other entries others)
      (inSchemas : Entries.Exchanged name (.table entries) (.table others) schemas otherSchemas)
      (inDocument : Entries.Exchanged "schemas" (.table schemas) (.table otherSchemas)
        document changed)
      (inside : FieldChanged old new place [.name "schemas", .name name, .name key] value other) :
      FieldAt old new place document changed

/-- The second document is the first one with the endpoint table at a place exchanged. -/
inductive EndpointAt (old new : Table) : KeyPath → Table → Table → Prop
  | intro (front back : List Value) {document changed : Table}
      (inDocument : Entries.Exchanged "endpoints" (.array (front ++ .table old :: back))
        (.array (front ++ .table new :: back)) document changed) :
      EndpointAt old new [.name "endpoints", .index front.length] document changed

/-- The second document is the first one with the request body at a place exchanged. -/
inductive BodyAt (old new : Value) : KeyPath → Table → Table → Prop
  | intro {entries others document changed : Table} {path : KeyPath}
      (inEndpoint : Entries.Exchanged "body" old new entries others)
      (endpoint : EndpointAt entries others path document changed) :
      BodyAt old new (path.child "body") document changed

/-- The second document is the first one with the query or path parameter at a place
exchanged. -/
inductive ParameterAt (old new : Value) : KeyPath → Table → Table → Prop
  | intro {name kind : String} (isKind : kind = "query" ∨ kind = "path_params")
      {parameters otherParameters entries others document changed : Table} {path : KeyPath}
      (inParameters : Entries.Exchanged name old new parameters otherParameters)
      (inEndpoint : Entries.Exchanged kind (.table parameters) (.table otherParameters)
        entries others)
      (endpoint : EndpointAt entries others path document changed) :
      ParameterAt old new ((path.child kind).child name) document changed

/-- The second document is the first one with the table of translations at a place
exchanged. -/
inductive TranslationAt (old new : Table) : KeyPath → Table → Table → Prop
  | intro {model field : String} {fields otherFields models otherModels document changed : Table}
      (inFields : Entries.Exchanged field (.table old) (.table new) fields otherFields)
      (inModels : Entries.Exchanged model (.table fields) (.table otherFields) models otherModels)
      (inDocument : Entries.Exchanged "models" (.table models) (.table otherModels)
        document changed) :
      TranslationAt old new [.name "models", .name model, .name field] document changed

end Extract

namespace Entry

variable {key : String} {old new : Value} {entries others : Table}

/-! ## Entries beside an exchanged one -/

theorem checkKeys_of_exchanged (exchanged : Entries.Exchanged key old new entries others)
    (allowed : List String) (path : KeyPath) :
    checkKeys allowed path others = checkKeys allowed path entries := by
  induction exchanged with
  | here rest => rfl
  | there different value inRest ih => rw [checkKeys, checkKeys, ih]

theorem tableAt_of_get? {table : Table} (isTable : Entries.get? key entries = some (.table table))
    (path : KeyPath) : tableAt entries key path = .ok table := by
  rw [tableAt, isTable]
  rfl

variable (exchanged : Entries.Exchanged key old new entries others) {other : String}
  (different : other ≠ key)

include exchanged different

theorem string?_of_exchanged (path : KeyPath) :
    string? others other path = string? entries other path := by
  rw [string?, string?, exchanged.get?_of_ne different]

theorem bool_of_exchanged (usual : Bool) (path : KeyPath) :
    bool others other usual path = bool entries other usual path := by
  rw [bool, bool, exchanged.get?_of_ne different]

theorem stringsAt_of_exchanged (path : KeyPath) :
    stringsAt others other path = stringsAt entries other path := by
  rw [stringsAt, stringsAt, exchanged.get?_of_ne different]

theorem array?_of_exchanged (path : KeyPath) :
    array? others other path = array? entries other path := by
  rw [array?, array?, exchanged.get?_of_ne different]

theorem plain?_of_exchanged : plain? others other = plain? entries other := by
  rw [plain?, plain?, exchanged.get?_of_ne different]

theorem tableAt_of_exchanged (path : KeyPath) :
    tableAt others other path = tableAt entries other path := by
  rw [tableAt, tableAt, exchanged.get?_of_ne different]

end Entry

namespace Extract

open Entry (Table)

variable {old new : Value} {place : KeyPath} (propagation : Propagation)

/-! ## Fields -/

theorem itemIn_eq (path : KeyPath) (entries : Table) :
    itemIn path entries = (match Entries.get? "items" entries with
      | none => .ok none
      | some value => do
          let item ← field (path.child "items") value
          .ok (some item)) := by
  induction entries with
  | nil => rfl
  | cons entry entries ih =>
      rw [itemIn.eq_def, Entries.get?]
      dsimp only
      split
      · rfl
      · exact ih

theorem propertiesIn_eq (path : KeyPath) (entries : Table) :
    propertiesIn path entries = (match Entries.get? "properties" entries with
      | none => .ok []
      | some (.table properties) => fields (path.child "properties") properties
      | some other => misplaced (.expectedTable other.kindName) (path.child "properties")) := by
  induction entries with
  | nil => rfl
  | cons entry entries ih =>
      rw [propertiesIn.eq_def, Entries.get?]
      dsimp only
      split
      · cases entry.2 <;> rfl
      · exact ih

/-- Reads an array, without its notes, from the entries of its table. -/
def arrayIn (path : KeyPath) (entries : Table) : Except Misplaced Field := do
  let item ← itemIn path entries
  checkFieldShape entries path "array"
  .ok (item.elim (.anyArray {}) (.array · {}))

/-- Reads an object, without its notes, from the entries of its table. -/
def objectIn (path : KeyPath) (entries : Table) : Except Misplaced Field := do
  let properties ← propertiesIn path entries
  let required ← Entry.stringsAt entries "required" path
  checkFieldShape entries path "object"
  .ok (.object properties required {})

/-- Reads a field that has no parts, without its notes. -/
def simpleIn (path : KeyPath) (entries : Table) (shape : Field) : Except Misplaced Field := do
  checkFieldShape entries path shape.typeName
  .ok shape

/-- Reads the shape of a field, without its notes, from the entries of its table. -/
def shapeIn (path : KeyPath) (entries : Table) : Except Misplaced Field :=
  match Entries.get? "schema" entries, Entries.get? "type" entries with
  | some _, some _ => misplaced .typeAndSchema (path.child "schema")
  | some schema, none => do
      let schema ← Entry.string (path.child "schema") schema
      simpleIn path entries (.reference schema {})
  | none, some type => do
      let type ← Entry.string (path.child "type") type
      match JsonType.ofName? type with
      | some .array => arrayIn path entries
      | some .object => objectIn path entries
      | some (.primitive type) => simpleIn path entries (.primitive type {})
      | none => simpleIn path entries (.reference type {})
  | none, none => misplaced .missingType path

/-- A field table is read in steps: its keys, its shape and its notes. -/
theorem field_table (path : KeyPath) (entries : Table) :
    field path (.table entries) = (do
      Entry.checkKeys fieldKeys path entries
      let shape ← shapeIn path entries
      let notes ← fieldNotes entries path
      .ok (withNotes notes shape)) := by
  rw [field, shapeIn]
  congr 1
  funext checked
  cases Entries.get? "schema" entries with
  | some schema =>
      cases Entries.get? "type" entries with
      | some type => rfl
      | none =>
          simp only [simpleIn, bind_assoc]
          rfl
  | none =>
      cases Entries.get? "type" entries with
      | none => rfl
      | some type =>
          dsimp only
          rw [bind_assoc]
          congr 1
          funext name
          cases isType : JsonType.ofName? name with
          | none =>
              simp only [simpleIn, bind_assoc, shorthand, isType]
              rfl
          | some type =>
              cases type with
              | primitive type =>
                  simp only [simpleIn, bind_assoc, shorthand, isType]
                  rfl
              | array =>
                  simp only [arrayIn, bind_assoc]
                  congr 1
                  funext item
                  cases item <;> rfl
              | object =>
                  simp only [objectIn, bind_assoc]
                  rfl

/-- The shapes of two tables with one type are related if they are for arrays, for objects
and for all other types. -/
theorem rel_shapeIn {path : KeyPath} {entries others : Table}
    (sameSchema : Entries.get? "schema" others = Entries.get? "schema" entries)
    (sameType : Entries.get? "type" others = Entries.get? "type" entries)
    (array : propagation.Rel (arrayIn path entries) (arrayIn path others))
    (object : propagation.Rel (objectIn path entries) (objectIn path others))
    (simple : ∀ shape, shape.typeName ≠ "array" → shape.typeName ≠ "object" →
      propagation.Rel (simpleIn path entries shape) (simpleIn path others shape)) :
    propagation.Rel (shapeIn path entries) (shapeIn path others) := by
  have reference (name : String) := simple (.reference name {})
    (show "$ref" ≠ "array" by decide) (show "$ref" ≠ "object" by decide)
  have primitive (type : Primitive) := simple (.primitive type {}) (by cases type <;> decide)
    (by cases type <;> decide)
  rw [shapeIn, shapeIn, sameSchema, sameType]
  cases Entries.get? "schema" entries with
  | some schema =>
      cases Entries.get? "type" entries with
      | some type => exact propagation.fault _
      | none => exact propagation.next reference
  | none =>
      cases Entries.get? "type" entries with
      | none => exact propagation.fault _
      | some type =>
          apply propagation.next
          intro name
          cases JsonType.ofName? name with
          | none => exact reference name
          | some type =>
              cases type with
              | primitive type => exact primitive type
              | array => exact array
              | object => exact object

variable {path : KeyPath} {key : String} {value other : Value} {entries others : Table}

theorem checkFieldShape_of_exchanged (exchanged : Entries.Exchanged key value other entries others)
    (path : KeyPath) (typeName : String) :
    checkFieldShape others path typeName = checkFieldShape entries path typeName := by
  simp only [checkFieldShape, exchanged.hasKey_eq]

theorem fieldNotes_of_exchanged (exchanged : Entries.Exchanged key value other entries others)
    (isPart : key = "items" ∨ key = "properties") (path : KeyPath) :
    fieldNotes others path = fieldNotes entries path := by
  have different (note : String) (isNote : note ≠ "items" ∧ note ≠ "properties") : note ≠ key := by
    rintro rfl
    exact isPart.elim isNote.1 isNote.2
  rw [fieldNotes, fieldNotes,
    Entry.string?_of_exchanged exchanged (different "format" (by decide)),
    Entry.string?_of_exchanged exchanged (different "description" (by decide)),
    Entry.array?_of_exchanged exchanged (different "enum" (by decide)),
    Entry.plain?_of_exchanged exchanged (different "example" (by decide)),
    Entry.plain?_of_exchanged exchanged (different "default" (by decide))]

/-- Where a table has items or properties, a type that cannot have them does not fit it. -/
theorem exists_checkFieldShape_eq_error (path : KeyPath) {typeName : String}
    (unfit : Entries.hasKey "items" entries = true ∧ typeName ≠ "array" ∨
      Entries.hasKey "properties" entries = true ∧ typeName ≠ "object") :
    ∃ found, checkFieldShape entries path typeName = .error found := by
  cases fits : checkFieldShape entries path typeName with
  | error found => exact ⟨found, rfl⟩
  | ok _ =>
      obtain ⟨noItems, noProperties⟩ := hasKey_of_checkFieldShape fits
      rcases unfit with ⟨hasItems, notArray⟩ | ⟨hasProperties, notObject⟩
      · simp [noItems notArray] at hasItems
      · simp [noProperties notObject] at hasProperties

theorem rel_simpleIn (exchanged : Entries.Exchanged key value other entries others) {shape : Field}
    (unfit : Entries.hasKey "items" entries = true ∧ shape.typeName ≠ "array" ∨
      Entries.hasKey "properties" entries = true ∧ shape.typeName ≠ "object") :
    propagation.Rel (simpleIn path entries shape) (simpleIn path others shape) := by
  obtain ⟨found, isFault⟩ := exists_checkFieldShape_eq_error path unfit
  rw [simpleIn, simpleIn, checkFieldShape_of_exchanged exchanged, isFault]
  exact propagation.fault found

/-- A field is read as its shape is when its keys and notes are the same. -/
theorem rel_field_of_shapeIn (exchanged : Entries.Exchanged key value other entries others)
    (isPart : key = "items" ∨ key = "properties")
    (shape : propagation.Rel (shapeIn path entries) (shapeIn path others)) :
    propagation.Rel (field path (.table entries)) (field path (.table others)) := by
  rw [field_table, field_table, Entry.checkKeys_of_exchanged exchanged,
    fieldNotes_of_exchanged exchanged isPart]
  exact propagation.next fun _ => propagation.first shape

theorem rel_field_of_items (exchanged : Entries.Exchanged "items" value other entries others)
    (related : propagation.Rel (field (path.child "items") value)
      (field (path.child "items") other)) :
    propagation.Rel (field path (.table entries)) (field path (.table others)) := by
  have hasItems : Entries.hasKey "items" entries = true := by
    rw [Entries.hasKey, exchanged.get?_old]
    rfl
  apply rel_field_of_shapeIn propagation exchanged (.inl rfl)
  apply rel_shapeIn propagation (exchanged.get?_of_ne (by decide))
    (exchanged.get?_of_ne (by decide))
  · rw [arrayIn, arrayIn, checkFieldShape_of_exchanged exchanged, itemIn_eq, itemIn_eq,
      exchanged.get?_old, exchanged.get?_new]
    exact propagation.first (propagation.first related)
  · obtain ⟨found, isFault⟩ := exists_checkFieldShape_eq_error path
      (.inl ⟨hasItems, show "object" ≠ "array" by decide⟩)
    rw [objectIn, objectIn, checkFieldShape_of_exchanged exchanged, isFault, propertiesIn_eq,
      propertiesIn_eq, exchanged.get?_of_ne (by decide),
      Entry.stringsAt_of_exchanged exchanged (by decide)]
    exact propagation.next fun _ => propagation.next fun _ => propagation.fault found
  · exact fun shape notArray _ => rel_simpleIn propagation exchanged (.inl ⟨hasItems, notArray⟩)

/-- Named fields are related when one of them is exchanged for a related one. -/
theorem rel_fields (exchanged : Entries.Exchanged key value other entries others)
    (related : propagation.Rel (field (path.child key) value) (field (path.child key) other)) :
    propagation.Rel (fields path entries) (fields path others) := by
  induction exchanged with
  | here rest =>
      rw [fields, fields]
      exact propagation.first related
  | there different first inRest ih =>
      rw [fields, fields]
      exact propagation.next fun _ => propagation.first ih

theorem rel_field_of_property {name : String} {properties otherProperties : Table}
    (exchanged : Entries.Exchanged "properties" (.table properties) (.table otherProperties)
      entries others)
    (isProperty : Entries.Exchanged name value other properties otherProperties)
    (related : propagation.Rel (field ((path.child "properties").child name) value)
      (field ((path.child "properties").child name) other)) :
    propagation.Rel (field path (.table entries)) (field path (.table others)) := by
  have hasProperties : Entries.hasKey "properties" entries = true := by
    rw [Entries.hasKey, exchanged.get?_old]
    rfl
  apply rel_field_of_shapeIn propagation exchanged (.inr rfl)
  apply rel_shapeIn propagation (exchanged.get?_of_ne (by decide))
    (exchanged.get?_of_ne (by decide))
  · obtain ⟨found, isFault⟩ := exists_checkFieldShape_eq_error path
      (.inr ⟨hasProperties, show "array" ≠ "object" by decide⟩)
    rw [arrayIn, arrayIn, checkFieldShape_of_exchanged exchanged, isFault, itemIn_eq, itemIn_eq,
      exchanged.get?_of_ne (by decide)]
    exact propagation.next fun _ => propagation.fault found
  · rw [objectIn, objectIn, checkFieldShape_of_exchanged exchanged, propertiesIn_eq,
      propertiesIn_eq, exchanged.get?_old, exchanged.get?_new,
      Entry.stringsAt_of_exchanged exchanged (by decide)]
    exact propagation.first (rel_fields propagation isProperty related)
  · exact fun shape _ notObject =>
      rel_simpleIn propagation exchanged (.inr ⟨hasProperties, notObject⟩)

/-- What becomes of a declaration is what becomes of the field inside it, by induction on
the way to the field. -/
theorem rel_field (inside : FieldChanged old new place path value other)
    (related : propagation.Rel (field place old) (field place new)) :
    propagation.Rel (field path value) (field path other) := by
  induction inside with
  | here => exact related
  | items exchanged _ ih => exact rel_field_of_items propagation exchanged ih
  | property exchanged isProperty _ ih =>
      exact rel_field_of_property propagation exchanged isProperty ih

/-! ## Schemas -/

/-- A schema made of its attributes, its fields, its items and the names it requires. -/
def schemaOf (name : String) (type : JsonType) (attributes : Table)
    (fields : List (String × Field)) (items : Option Field) (required : List String) : Schema where
  name
  type
  title := stringIn? "title" attributes
  description := stringIn? "description" attributes
  format := stringIn? "format" attributes
  sample := Entry.plain? attributes "example"
  choices := match Entries.get? "enum" attributes with
    | some (.array choices) => some choices
    | _ => none
  required
  fields
  items

/-- A schema is read in steps: its type, its fields, its items and the names it requires. -/
theorem schema_eq (name : String) (entries : Table) (path : KeyPath) :
    schema name entries path = (do
      let type ← schemaType entries path
      let fields ← fields path (entries.filter (!isAttribute type ·))
      let items ← itemIn path (entries.filter (isAttribute type))
      let required ← Entry.stringsAt (entries.filter (isAttribute type)) "required" path
      .ok (schemaOf name type (entries.filter (isAttribute type)) fields items required)) := by
  rw [schema]
  congr 1
  funext type
  dsimp only
  congr 1
  funext declared
  rw [itemIn_eq]
  cases Entries.get? "items" (entries.filter (isAttribute type)) with
  | none => rfl
  | some value =>
      dsimp only
      rw [bind_assoc]
      rfl

theorem stringIn?_of_exchanged (exchanged : Entries.Exchanged key value other entries others)
    {name : String} (different : name ≠ key) :
    stringIn? name others = stringIn? name entries := by
  rw [stringIn?, stringIn?, exchanged.get?_of_ne different]

theorem schemaOf_of_items (exchanged : Entries.Exchanged "items" value other entries others)
    (name : String) (type : JsonType) :
    schemaOf name type others = schemaOf name type entries := by
  funext fields items required
  simp [schemaOf, exchanged.get?_of_ne, stringIn?_of_exchanged exchanged,
    Entry.plain?_of_exchanged exchanged]

theorem isAttribute_of_declares (declares : Declares key value) (declaresOther : Declares key other)
    (type : JsonType) :
    isAttribute type (key, other) = isAttribute type (key, value) := by
  rcases declares with rfl | isField
  · rfl
  · rcases declaresOther with rfl | isOtherField
    · rfl
    · rw [isField, isOtherField]

/-- A type name of a schema is no declaration. -/
theorem stringIn?_type_of_declares (declares : Declares "type" value)
    (isValue : Entries.get? "type" entries = some value) : stringIn? "type" entries = none := by
  rw [stringIn?, isValue]
  rcases declares with isItems | isField
  · contradiction
  · have noAttribute := isField .object
    cases value with
    | array _ | table _ => rfl
    | scalar part =>
        cases part with
        | string name => contradiction
        | null | bool _ | int _ | float _ | dateTime _ | date _ | time _ => rfl

theorem schemaType_of_exchanged (exchanged : Entries.Exchanged key value other entries others)
    (declares : Declares key value) (declaresOther : Declares key other) :
    schemaType others path = schemaType entries path := by
  have sameName : stringIn? "type" others = stringIn? "type" entries := by
    by_cases isType : key = "type"
    · subst isType
      rw [stringIn?_type_of_declares declaresOther exchanged.get?_new,
        stringIn?_type_of_declares declares exchanged.get?_old]
    · exact stringIn?_of_exchanged exchanged (Ne.symm isType)
  rw [schemaType, schemaType, sameName]

/-- What becomes of a schema is what becomes of the declaration that is exchanged: it is
among the fields, or it is the items. -/
theorem rel_schema (exchanged : Entries.Exchanged key value other entries others)
    (declares : Declares key value) (declaresOther : Declares key other) (name : String)
    (related : propagation.Rel (field (path.child key) value) (field (path.child key) other)) :
    propagation.Rel (schema name entries path) (schema name others path) := by
  rw [schema_eq, schema_eq, schemaType_of_exchanged exchanged declares declaresOther]
  apply propagation.next
  intro type
  have sameKind := isAttribute_of_declares declares declaresOther type
  cases isKind : isAttribute type (key, value) with
  | false =>
      rw [isKind] at sameKind
      rw [exchanged.filter_of_drop _ isKind sameKind]
      have inFields := exchanged.filter_of_keep (!isAttribute type ·) (by simp [isKind])
        (by simp [sameKind])
      exact propagation.first (rel_fields propagation inFields related)
  | true =>
      obtain rfl : key = "items" := declares.resolve_right fun isField => by
        simp [isField] at isKind
      rw [isKind] at sameKind
      have inAttributes := exchanged.filter_of_keep _ isKind sameKind
      rw [exchanged.filter_of_drop (!isAttribute type ·) (by simp [isKind])
        (by simp [sameKind]), itemIn_eq, itemIn_eq, inAttributes.get?_old, inAttributes.get?_new,
        Entry.stringsAt_of_exchanged inAttributes (by decide), schemaOf_of_items inAttributes]
      exact propagation.next fun _ => propagation.first (propagation.first related)

/-- A table declares something unless it is an example without a type. -/
theorem declares_table_iff : Declares key (.table entries) ↔
    (key = "example" → Entries.hasKey "type" entries = true ∨
      Entries.hasKey "schema" entries = true) := by
  by_cases isExample : key = "example"
  · subst isExample
    have inhabited : Nonempty JsonType := ⟨.object⟩
    simp [Declares, isAttribute, or_iff_not_imp_left]
  · refine iff_of_true ?_ fun same => absurd same isExample
    by_cases isItems : key = "items"
    · exact .inl isItems
    · refine .inr fun type => ?_
      by_cases isRequired : key = "required"
      · rw [isRequired]
        rfl
      by_cases isEnum : key = "enum"
      · rw [isEnum]
        rfl
      · simp [isAttribute]

theorem declares_of_fieldChanged (inside : FieldChanged old new place path value other)
    (stays : Declares key old → Declares key new) (declares : Declares key value) :
    Declares key other := by
  cases inside with
  | here => exact stays declares
  | items exchanged _ | property exchanged _ _ =>
      rw [declares_table_iff] at declares ⊢
      rw [exchanged.hasKey_eq, exchanged.hasKey_eq]
      exact declares

theorem rel_schemas {name : String} {table otherTable schemaTables otherTables : Table}
    (exchanged : Entries.Exchanged name (.table table) (.table otherTable) schemaTables otherTables)
    (related : propagation.Rel (schema name table [.name "schemas", .name name])
      (schema name otherTable [.name "schemas", .name name])) :
    propagation.Rel (schemas schemaTables) (schemas otherTables) := by
  induction exchanged with
  | here rest =>
      rw [schemas, schemas]
      change propagation.Rel (schema name table _ >>= _) (schema name otherTable _ >>= _)
      exact propagation.first related
  | there different first inRest ih =>
      rw [schemas, schemas]
      exact propagation.next fun _ => propagation.next fun _ => propagation.first ih

/-! ## Endpoints -/

/-- Reads an endpoint table as far as it tells neither the body nor the parameters. -/
def endpointHead (fileName : Option String) (path : KeyPath) (entries : Table) :
    Except Misplaced Endpoint := do
  let url ← match Entries.get? "path" entries with
    | some url => .ok url
    | none => misplaced .missingPath path
  let methodName ← match Entries.get? "method" entries with
    | some name => .ok name
    | none => misplaced .missingMethod path
  let url ← Entry.string (path.child "path") url
  let methodName ← Entry.string (path.child "method") methodName
  let method ← match method? methodName with
    | some method => .ok method
    | none => misplaced (.unknownMethod methodName) (path.child "method")
  let tags ← match Entries.get? "tags" entries with
    | some tags => Entry.strings (path.child "tags") tags
    | none => .ok (nonempty fileName).toList
  let summary ← Entry.string? entries "summary" path
  let description ← Entry.string? entries "description" path
  let deprecated ← Entry.bool entries "deprecated" false path
  .ok { path := url, method, summary := summary.getD "", description, tags, deprecated }

/-- An endpoint is read in steps: its keys, its head, its body and its parameters. -/
theorem endpoint_eq (fileName : Option String) (path : KeyPath) (entries : Table) :
    endpoint fileName path entries = (do
      Entry.checkKeys endpointKeys path entries
      let head ← endpointHead fileName path entries
      let body ← body? entries path
      let query ← parametersAt entries "query" path
      let pathParameters ← parametersAt entries "path_params" path
      .ok { head with body, query, pathParameters }) := by
  rw [endpoint, endpointHead]
  congr 1
  funext checked
  cases Entries.get? "path" entries with
  | none => rfl
  | some url =>
      cases Entries.get? "method" entries with
      | none => rfl
      | some name =>
          simp only [ok_bind, bind_assoc]
          congr 1
          funext url
          congr 1
          funext methodName
          cases method? methodName with
          | none => rfl
          | some method => cases Entries.get? "tags" entries <;> simp only [bind_assoc, ok_bind]

theorem endpointHead_of_exchanged (exchanged : Entries.Exchanged key value other entries others)
    (isPart : key = "body" ∨ key = "query" ∨ key = "path_params") (fileName : Option String)
    (path : KeyPath) : endpointHead fileName path others = endpointHead fileName path entries := by
  have different (part : String) (isHead : part ≠ "body" ∧ part ≠ "query" ∧ part ≠ "path_params") :
      part ≠ key := by
    rintro rfl
    exact isPart.elim isHead.1 fun isKind => isKind.elim isHead.2.1 isHead.2.2
  rw [endpointHead, endpointHead, exchanged.get?_of_ne (different "path" (by decide)),
    exchanged.get?_of_ne (different "method" (by decide)),
    exchanged.get?_of_ne (different "tags" (by decide)),
    Entry.string?_of_exchanged exchanged (different "summary" (by decide)),
    Entry.string?_of_exchanged exchanged (different "description" (by decide)),
    Entry.bool_of_exchanged exchanged (different "deprecated" (by decide))]

theorem body?_of_exchanged (exchanged : Entries.Exchanged key value other entries others)
    (different : "body" ≠ key) (path : KeyPath) : body? others path = body? entries path := by
  rw [body?, body?, exchanged.get?_of_ne different]

theorem parametersAt_of_exchanged (exchanged : Entries.Exchanged key value other entries others)
    {kind : String} (different : kind ≠ key) (path : KeyPath) :
    parametersAt others kind path = parametersAt entries kind path := by
  rw [parametersAt, parametersAt, Entry.tableAt_of_exchanged exchanged different]

theorem rel_endpoint_of_body (exchanged : Entries.Exchanged "body" value other entries others)
    (fileName : Option String)
    (related : propagation.Rel (body (path.child "body") value) (body (path.child "body") other)) :
    propagation.Rel (endpoint fileName path entries) (endpoint fileName path others) := by
  have bodies : propagation.Rel (body? entries path) (body? others path) := by
    rw [body?, body?, exchanged.get?_old, exchanged.get?_new]
    exact propagation.first related
  rw [endpoint_eq, endpoint_eq, Entry.checkKeys_of_exchanged exchanged,
    endpointHead_of_exchanged exchanged (.inl rfl), parametersAt_of_exchanged exchanged (by decide),
    parametersAt_of_exchanged exchanged (by decide)]
  exact propagation.next fun _ => propagation.next fun _ => propagation.first bodies

theorem rel_parameters (exchanged : Entries.Exchanged key value other entries others)
    (related : propagation.Rel (parameter (path.child key) value)
      (parameter (path.child key) other)) :
    propagation.Rel (parameters path entries) (parameters path others) := by
  induction exchanged with
  | here rest =>
      rw [parameters, parameters]
      exact propagation.first related
  | there different first inRest ih =>
      rw [parameters, parameters]
      exact propagation.next fun _ => propagation.first ih

theorem rel_endpoint_of_parameter {name kind : String} {table otherTable : Table}
    (isKind : kind = "query" ∨ kind = "path_params")
    (exchanged : Entries.Exchanged kind (.table table) (.table otherTable) entries others)
    (isParameter : Entries.Exchanged name value other table otherTable) (fileName : Option String)
    (related : propagation.Rel (parameter ((path.child kind).child name) value)
      (parameter ((path.child kind).child name) other)) :
    propagation.Rel (endpoint fileName path entries) (endpoint fileName path others) := by
  have exchangedParameters :
      propagation.Rel (parametersAt entries kind path) (parametersAt others kind path) := by
    rw [parametersAt, parametersAt, Entry.tableAt, Entry.tableAt, exchanged.get?_old,
      exchanged.get?_new]
    exact rel_parameters propagation isParameter related
  have notBody : "body" ≠ kind := by rcases isKind with rfl | rfl <;> decide
  rw [endpoint_eq, endpoint_eq, Entry.checkKeys_of_exchanged exchanged,
    endpointHead_of_exchanged exchanged (.inr isKind), body?_of_exchanged exchanged notBody]
  apply propagation.next
  intro _
  apply propagation.next
  intro head
  apply propagation.next
  intro body
  rcases isKind with rfl | rfl
  · rw [parametersAt_of_exchanged exchanged (show "path_params" ≠ "query" by decide)]
    exact propagation.first exchangedParameters
  · rw [parametersAt_of_exchanged exchanged (show "query" ≠ "path_params" by decide)]
    exact propagation.next fun _ => propagation.first exchangedParameters

theorem rel_endpointsFrom {table otherTable : Table} (fileName : Option String)
    (front back : List Value) (index : Nat)
    (related : propagation.Rel
      (endpoint fileName [.name "endpoints", .index (index + front.length)] table)
      (endpoint fileName [.name "endpoints", .index (index + front.length)] otherTable)) :
    propagation.Rel (endpointsFrom fileName index (front ++ .table table :: back))
      (endpointsFrom fileName index (front ++ .table otherTable :: back)) := by
  induction front generalizing index with
  | nil =>
      rw [List.nil_append, List.nil_append, endpointsFrom, endpointsFrom]
      change propagation.Rel (endpoint fileName _ table >>= _)
        (endpoint fileName _ otherTable >>= _)
      exact propagation.first related
  | cons value front ih =>
      rw [List.cons_append, List.cons_append, endpointsFrom, endpointsFrom]
      rw [List.length_cons, Nat.add_comm front.length, ← Nat.add_assoc] at related
      exact propagation.next fun _ => propagation.next fun _ => propagation.first (ih _ related)

/-! ## Documents -/

variable {document changed : Table} (source : String)

theorem rel_definition_of_endpointAt {table otherTable : Table}
    (inPlace : EndpointAt table otherTable place document changed)
    (related : ∀ fileName, propagation.Rel (endpoint fileName place table)
      (endpoint fileName place otherTable)) :
    propagation.Rel (definition source document) (definition source changed) := by
  obtain ⟨front, back, exchanged⟩ := inPlace
  have read (fileName : Option String) :
      propagation.Rel (endpoints fileName document) (endpoints fileName changed) := by
    rw [endpoints, endpoints, exchanged.get?_old, exchanged.get?_new]
    apply rel_endpointsFrom
    rw [Nat.zero_add]
    exact related fileName
  rw [definition, definition, Entry.checkKeys_of_exchanged exchanged,
    Entry.string?_of_exchanged exchanged (by decide),
    Entry.tableAt_of_exchanged exchanged (by decide),
    Entry.string?_of_exchanged exchanged (by decide),
    Entry.string?_of_exchanged exchanged (by decide),
    Entry.tableAt_of_exchanged exchanged (by decide)]
  exact propagation.next fun _ => propagation.next fun name => propagation.first (read name)

theorem rel_definition_of_bodyAt (inPlace : BodyAt old new place document changed)
    (related : propagation.Rel (body place old) (body place new)) :
    propagation.Rel (definition source document) (definition source changed) := by
  obtain ⟨inEndpoint, inDocument⟩ := inPlace
  exact rel_definition_of_endpointAt propagation source inDocument fun fileName =>
    rel_endpoint_of_body propagation inEndpoint fileName related

theorem rel_definition_of_parameterAt (inPlace : ParameterAt old new place document changed)
    (related : propagation.Rel (parameter place old) (parameter place new)) :
    propagation.Rel (definition source document) (definition source changed) := by
  obtain ⟨isKind, inParameters, inEndpoint, inDocument⟩ := inPlace
  exact rel_definition_of_endpointAt propagation source inDocument fun fileName =>
    rel_endpoint_of_parameter propagation isKind inEndpoint inParameters fileName related

theorem rel_definition_of_fieldAt (inPlace : FieldAt old new place document changed)
    (stays : ∀ key, Declares key old → Declares key new)
    (related : propagation.Rel (field place old) (field place new)) :
    propagation.Rel (definition source document) (definition source changed) := by
  obtain ⟨declares, inSchema, inSchemas, exchanged, inside⟩ := inPlace
  have read := rel_schemas propagation inSchemas (rel_schema propagation inSchema declares
    (declares_of_fieldChanged inside (stays _) declares) _ (rel_field propagation inside related))
  rw [definition, definition, Entry.checkKeys_of_exchanged exchanged,
    Entry.string?_of_exchanged exchanged (show "name" ≠ "schemas" by decide),
    Entry.string?_of_exchanged exchanged (show "version" ≠ "schemas" by decide),
    Entry.string?_of_exchanged exchanged (show "description" ≠ "schemas" by decide),
    Entry.tableAt_of_exchanged exchanged (show "models" ≠ "schemas" by decide),
    Entry.tableAt_of_get? exchanged.get?_old, Entry.tableAt_of_get? exchanged.get?_new]
  simp only [endpoints, exchanged.get?_of_ne (show "endpoints" ≠ "schemas" by decide), ok_bind]
  exact propagation.next fun _ => propagation.next fun _ => propagation.next fun _ =>
    propagation.first read

/-! ## Translations -/

/-- Reads the rules of a table of translations after its keys. -/
def translationRules (path : KeyPath) (entries : Table) : Except Misplaced (List Rule) := do
  Entry.checkKeys ["translations"] path entries
  rules entries path

theorem modelFields_table (model field : String) (table rest : Table) :
    modelFields model ((field, .table table) :: rest) = (do
      let rules ← translationRules [.name "models", .name model, .name field] table
      let rest ← modelFields model rest
      .ok (⟨model, field, rules⟩ :: rest)) := by
  rw [modelFields, translationRules, bind_assoc]
  rfl

theorem rel_modelFields {model field : String} {table otherTable fieldTables otherTables : Table}
    (exchanged : Entries.Exchanged field (.table table) (.table otherTable) fieldTables otherTables)
    (related : propagation.Rel
      (translationRules [.name "models", .name model, .name field] table)
      (translationRules [.name "models", .name model, .name field] otherTable)) :
    propagation.Rel (modelFields model fieldTables) (modelFields model otherTables) := by
  induction exchanged with
  | here rest =>
      rw [modelFields_table, modelFields_table]
      exact propagation.first related
  | there different first inRest ih =>
      rw [modelFields, modelFields]
      exact propagation.next fun _ => propagation.next fun _ => propagation.next fun _ =>
        propagation.first ih

theorem rel_models {model : String} {table otherTable modelTables otherTables : Table}
    (exchanged : Entries.Exchanged model (.table table) (.table otherTable) modelTables otherTables)
    (related : propagation.Rel (modelFields model table) (modelFields model otherTable)) :
    propagation.Rel (models modelTables) (models otherTables) := by
  induction exchanged with
  | here rest =>
      rw [models, models]
      change propagation.Rel (modelFields model table >>= _) (modelFields model otherTable >>= _)
      exact propagation.first related
  | there different first inRest ih =>
      rw [models, models]
      exact propagation.next fun _ => propagation.next fun _ => propagation.first ih

theorem rel_definition_of_translationAt {table otherTable : Table}
    (inPlace : TranslationAt table otherTable place document changed)
    (related : propagation.Rel (translationRules place table)
      (translationRules place otherTable)) :
    propagation.Rel (definition source document) (definition source changed) := by
  obtain ⟨inFields, inModels, exchanged⟩ := inPlace
  have read := rel_models propagation inModels (rel_modelFields propagation inFields related)
  rw [definition, definition, Entry.checkKeys_of_exchanged exchanged,
    Entry.string?_of_exchanged exchanged (show "name" ≠ "models" by decide),
    Entry.string?_of_exchanged exchanged (show "version" ≠ "models" by decide),
    Entry.string?_of_exchanged exchanged (show "description" ≠ "models" by decide),
    Entry.tableAt_of_exchanged exchanged (show "schemas" ≠ "models" by decide),
    Entry.tableAt_of_get? exchanged.get?_old, Entry.tableAt_of_get? exchanged.get?_new]
  simp only [endpoints, exchanged.get?_of_ne (show "endpoints" ≠ "models" by decide), ok_bind]
  exact propagation.next fun _ => propagation.next fun _ => propagation.next fun _ =>
    propagation.next fun _ => propagation.next fun _ => propagation.next fun _ =>
      propagation.next fun _ => propagation.first read

end Extract

end ApiWorkshop
