import Mathlib.Logic.Basic
import ApiWorkshop.Proofs.Api.Completed
import ApiWorkshop.Proofs.Api.Gathered
import ApiWorkshop.Proofs.Api.Idempotent
import ApiWorkshop.Proofs.OpenApi.Operations

/-!
# Reading schemas back

A document leaves out what would be empty, writes several kinds of fields as tables
with some of the same keys, and nests them.  Still the type that a field has can be
told from its keys at every depth, so a schema can be read back from its document, up
to its name, empty texts and the formats of references and of object schemas.  So two
schemas with the same document differ in nothing else.
-/

namespace ApiWorkshop

open Normalize

/-! ## What a document tells of a schema -/

/-- A text that is there and not empty. -/
def present (text : Option String) : Option String :=
  text.filter fun text => ! text.isEmpty

/-- Notes as a document tells them: an empty format is like none. -/
def Notes.published (notes : Notes) : Notes :=
  { notes with format := present notes.format }

namespace Field

mutual

/-- A field as a document tells it: a reference has no format, and any other empty
format is like none. -/
def published : Field → Field
  | primitive type notes => primitive type notes.published
  | anyArray notes => anyArray notes.published
  | array item notes => array (published item) notes.published
  | object properties required notes =>
      object (publishedFields properties) required notes.published
  | reference schema notes => reference schema { notes with format := none }

/-- Named fields as a document tells them. -/
def publishedFields : List (String × Field) → List (String × Field)
  | [] => []
  | (name, field) :: fields => (name, published field) :: publishedFields fields

end

end Field

/-- A schema as a document tells it: without its name, with no empty title or format, and
with no format of an object. -/
def Schema.published (schema : Schema) : Schema :=
  { schema with
    name := ""
    title := present schema.title
    format := if schema.type = .object then none else present schema.format
    fields := Field.publishedFields schema.fields
    items := schema.items.map Field.published }

/-- The text of a value that is one. -/
def Value.text? : Value → Option String
  | .string text => some text
  | _ => none

namespace OpenApi

/-! ## Reading a schema -/

def textUnder? (key : String) (schema : Value) : Option String :=
  (schema.under? key).bind Value.text?

def typeOf? (schema : Value) : Option JsonType :=
  (textUnder? "type" schema).bind JsonType.ofName?

/-- The name of the component schema that a reference leads to. -/
def targetOf (schema : Value) : String :=
  String.ofList (((textUnder? "$ref" schema).getD "").toList.drop
    "#/components/schemas/".toList.length)

def requiredOf (schema : Value) : List String :=
  (((schema.under? "required").map Value.items).getD []).filterMap Value.text?

def notesOf (schema : Value) : Notes :=
  { format := textUnder? "format" schema
    description := some ((textUnder? "description" schema).getD "")
    sample := schema.under? "example"
    choices := (schema.under? "enum").map Value.items
    fallback := schema.under? "default" }

mutual

/-- The field that a schema of a document is for. -/
def fieldOf : Value → Field
  | .table entries =>
      let notes := notesOf (.table entries)
      match typeOf? (.table entries), itemOf? entries with
      | some (.primitive type), _ => .primitive type notes
      | some .array, some item => .array item notes
      | some .array, none => .anyArray notes
      | some .object, _ => .object (propertiesOf entries) (requiredOf (.table entries)) notes
      | none, _ => .reference (targetOf (.table entries)) notes
  | _ => .anyArray {}

/-- The field that the items of a schema are for. -/
def itemOf? : List (String × Value) → Option Field
  | [] => none
  | (key, value) :: entries => if key = "items" then some (fieldOf value) else itemOf? entries

/-- The fields that the properties of a schema are for. -/
def propertiesOf : List (String × Value) → List (String × Field)
  | [] => []
  | (key, value) :: entries => if key = "properties" then fieldsOf value else propertiesOf entries

def fieldsOf : Value → List (String × Field)
  | .table entries => namedFieldsOf entries
  | _ => []

def namedFieldsOf : List (String × Value) → List (String × Field)
  | [] => []
  | (name, value) :: entries => (name, fieldOf value) :: namedFieldsOf entries

end

/-- The schema that a component schema of a document is for. -/
def schemaOf (schema : Value) : Schema :=
  { name := ""
    type := (typeOf? schema).getD .object
    title := textUnder? "title" schema
    description := some ((textUnder? "description" schema).getD "")
    format := textUnder? "format" schema
    sample := schema.under? "example"
    choices := (schema.under? "enum").map Value.items
    required := requiredOf schema
    fields := propertiesOf schema.entries
    items := itemOf? schema.entries }

/-! ## Lookups in the entries of a schema -/

theorem get?_textEntry (key other : String) (text : Option String) :
    Entries.get? key (textEntry other text) =
      if other = key then (present text).map Value.string else none := by
  cases text with
  | none => simp [textEntry, present]
  | some text =>
      rw [textEntry, present, Option.filter_some]
      cases text.isEmpty <;> simp [Entries.get?]

theorem get?_given {α : Type} (key other : String) (make : α → Value) (given : Option α) :
    Entries.get? key (given.toList.map fun found => (other, make found)) =
      if other = key then given.map make else none := by
  cases given <;> simp [Entries.get?]

theorem get?_annotations (key : String) (choices : Option (List Value))
    (fallback sample : Option Value) :
    Entries.get? key (annotations choices fallback sample) =
      ((if "enum" = key then choices.map Value.array else none).or
        (if "default" = key then fallback else none)).or
        (if "example" = key then sample else none) := by
  have plain (other : String) (given : Option Value) :
      Entries.get? key (given.toList.map fun found => (other, found)) =
        if other = key then given else none := by
    simpa using get?_given key other id given
  rw [annotations, Entries.get?_append, Entries.get?_append, get?_given, plain, plain]

theorem get?_objectEntries (key : String) (properties : List (String × Value))
    (required : List String) :
    Entries.get? key (objectEntries properties required) =
      if "type" = key then some (.string "object")
      else if "properties" = key then some (.table properties)
      else if "required" = key ∧ required ≠ [] then some (stringsValue required)
      else none := by
  cases required <;> simp [objectEntries, typeEntry, Entries.get?]

theorem text_bind_string (text : Option String) :
    (text.map Value.string).bind Value.text? = text := by
  cases text <;> rfl

theorem items_comp_array : Value.items ∘ Value.array = id :=
  rfl

theorem present_getD (text : Option String) : (present text).getD "" = text.getD "" := by
  cases text with
  | none => rfl
  | some text =>
      rw [present, Option.filter_some]
      cases isEmpty : text.isEmpty with
      | false => rfl
      | true => simpa using (String.isEmpty_iff.mp isEmpty).symm

/-! ## Reading fields back -/

theorem itemOf?_eq_map (entries : List (String × Value)) :
    itemOf? entries = (Entries.get? "items" entries).map fieldOf := by
  induction entries with
  | nil => rfl
  | cons entry entries ih =>
      rw [itemOf?, Entries.get?, ih]
      split <;> rfl

theorem propertiesOf_eq_getD (entries : List (String × Value)) :
    propertiesOf entries = ((Entries.get? "properties" entries).map fieldsOf).getD [] := by
  induction entries with
  | nil => rfl
  | cons entry entries ih =>
      rw [propertiesOf, Entries.get?, ih]
      split <;> rfl

theorem ofName?_name (type : JsonType) : JsonType.ofName? type.name = some type := by
  rcases type with (_ | _ | _ | _) | _ | _ <;> decide +kernel

/-- The notes of a field that is no reference can be read from its schema. -/
theorem notesOf_append (shape : Entries String Value)
    (bare : ∀ key ∈ ["format", "description", "enum", "default", "example"],
      Entries.get? key shape = none) (notes : Notes) :
    notesOf (.table (shape ++ noteEntries notes)) = (completeNotes notes).published := by
  simp [notesOf, textUnder?, Value.under?, Entries.get?_append, noteEntries, noteAnnotations,
    get?_textEntry, get?_annotations, bare, text_bind_string, items_comp_array, present_getD,
    completeNotes, Notes.published]

theorem typeOf?_typeEntry (type : JsonType) (entries : Entries String Value) :
    typeOf? (.table (typeEntry type.name :: entries)) = some type := by
  simp [typeOf?, textUnder?, Value.under?, typeEntry, Entries.get?, Value.text?, ofName?_name]

theorem get?_items_noteEntries (notes : Notes) :
    Entries.get? "items" (noteEntries notes) = none :=
  shapeless_noteEntries notes "items" (by decide)

theorem requiredOf_objectEntries (properties : List (String × Value)) (required : List String)
    {others : Entries String Value} (shapeless : Shapeless others) :
    requiredOf (.table (objectEntries properties required ++ others)) = required := by
  have written : (stringsValue required).items.filterMap Value.text? = required := by
    simp [stringsValue, Value.items, List.filterMap_map, Function.comp_def, Value.text?]
  have noOther := shapeless "required" (by decide)
  cases required with
  | nil => simp [requiredOf, Value.under?, Entries.get?_append, get?_objectEntries, noOther]
  | cons name names =>
      simp [requiredOf, Value.under?, Entries.get?_append, get?_objectEntries, written]

theorem targetOf_reference (schema : String) (entries : Entries String Value) :
    targetOf (.table (reference schema ++ entries)) = schema := by
  simp [targetOf, textUnder?, Value.under?, reference, Entries.get?, Value.text?]

mutual

/-- A field can be read back from its schema. -/
theorem fieldOf_fieldValue :
    ∀ field : Field, fieldOf (fieldValue field) = (completeField field).published
  | .primitive type notes => by
      have isType : typeOf? (.table (typeEntry type.name :: noteEntries notes)) =
          some (.primitive type) := typeOf?_typeEntry (.primitive type) _
      have sameNotes := notesOf_append [typeEntry type.name]
        (by simp [typeEntry, Entries.get?]) notes
      rw [fieldValue, fieldOf, isType, completeField, Field.published, ← sameNotes]
      rfl
  | .anyArray notes => by
      have isType : typeOf? (.table (typeEntry "array" :: noteEntries notes)) = some .array :=
        typeOf?_typeEntry .array _
      have noItem : itemOf? (typeEntry "array" :: noteEntries notes) = none := by
        rw [itemOf?_eq_map]
        simp [typeEntry, Entries.get?, get?_items_noteEntries]
      have sameNotes := notesOf_append [typeEntry "array"]
        (by simp [typeEntry, Entries.get?]) notes
      rw [fieldValue, fieldOf, isType, noItem, completeField, Field.published, ← sameNotes]
      rfl
  | .array item notes => by
      have isType : typeOf? (.table
          (typeEntry "array" :: ("items", fieldValue item) :: noteEntries notes)) = some .array :=
        typeOf?_typeEntry .array _
      have isItem : itemOf? (typeEntry "array" :: ("items", fieldValue item) :: noteEntries notes) =
          some (completeField item).published := by
        rw [itemOf?_eq_map]
        simp [typeEntry, Entries.get?, fieldOf_fieldValue item]
      have sameNotes := notesOf_append [typeEntry "array", ("items", fieldValue item)]
        (by simp [typeEntry, Entries.get?]) notes
      rw [fieldValue, fieldOf, isType, isItem, completeField, Field.published, ← sameNotes]
      rfl
  | .object properties required notes => by
      have isType : typeOf? (.table
          (objectEntries (fieldValues properties) required ++ noteEntries notes)) = some .object :=
        typeOf?_typeEntry .object _
      have areProperties : propertiesOf
          (objectEntries (fieldValues properties) required ++ noteEntries notes) =
            Field.publishedFields (completeFields properties) := by
        rw [propertiesOf_eq_getD]
        simp [Entries.get?_append, get?_objectEntries, fieldsOf, namedFieldsOf_fieldValues properties]
      have sameNotes := notesOf_append (objectEntries (fieldValues properties) required)
        (by simp [get?_objectEntries]) notes
      rw [fieldValue, fieldOf, isType, areProperties,
        requiredOf_objectEntries _ _ (shapeless_noteEntries notes), completeField, Field.published,
        ← sameNotes]
  | .reference schema notes => by
      have withoutFormat : textEntry "description" notes.description ++ noteAnnotations notes =
          noteEntries { notes with format := none } := rfl
      have noType : typeOf? (.table
          (reference schema ++ noteEntries { notes with format := none })) = none := by
        simp [typeOf?, textUnder?, Value.under?, Entries.get?_append, reference, Entries.get?,
          noteEntries, noteAnnotations, get?_textEntry, get?_annotations]
      have sameNotes := notesOf_append (reference schema)
        (by simp [reference, Entries.get?]) { notes with format := none }
      rw [fieldValue, List.append_assoc, withoutFormat, fieldOf, noType, targetOf_reference,
        sameNotes]
      rfl

theorem namedFieldsOf_fieldValues : ∀ fields : List (String × Field),
    namedFieldsOf (fieldValues fields) = Field.publishedFields (completeFields fields)
  | [] => rfl
  | (name, field) :: fields => by
      rw [fieldValues, namedFieldsOf, completeFields, Field.publishedFields,
        fieldOf_fieldValue field, namedFieldsOf_fieldValues fields]

end

/-! ## Reading schemas back -/

section Complete

variable {schema : Schema}

theorem description_completeSchema (schema : Schema) :
    (completeSchema schema).description = some (schema.description.getD "") := by
  rw [completeSchema]
  split
  · split <;> rfl
  · rfl
  · rfl

theorem bare_completeSchema (notObject : schema.type ≠ .object) :
    (completeSchema schema).fields = [] ∧ (completeSchema schema).required = [] := by
  rw [completeSchema]
  cases isType : schema.type with
  | primitive type => exact ⟨rfl, rfl⟩
  | object => exact absurd isType notObject
  | array =>
      dsimp only
      split
      next noFields => exact ⟨List.isEmpty_iff.mp noFields, rfl⟩
      next => exact ⟨rfl, rfl⟩

/-- The fields of a complete schema are complete. -/
theorem completeFields_of_complete (complete : completeSchema schema = schema) :
    completeFields schema.fields = schema.fields := by
  by_cases isObject : schema.type = .object
  · have sameFields := congrArg Schema.fields complete
    rwa [completeSchema, isObject] at sameFields
  · have noFields := (bare_completeSchema isObject).1
    rw [complete] at noFields
    rw [noFields, completeFields]

/-- The items of a complete array schema are complete. -/
theorem completeField_of_complete (complete : completeSchema schema = schema)
    (isArray : schema.items ≠ none → schema.type = .array) :
    schema.items.map completeField = schema.items := by
  by_cases isType : schema.type = .array
  · have notObject : schema.type ≠ .object := by simp [isType]
    have noFields := (bare_completeSchema notObject).1
    rw [complete] at noFields
    have sameItems := congrArg Schema.items complete
    rwa [completeSchema, isType, noFields] at sameItems
  · rw [not_imp_comm.mp isArray isType]
    rfl

theorem get?_schemaShape (key : String) (schema : Schema) :
    Entries.get? key (schemaShape schema) =
      match schema.type with
      | .object => Entries.get? key (objectEntries (fieldValues schema.fields) schema.required)
      | .array =>
          ((Entries.get? key [typeEntry "array"]).or
            (if "items" = key then schema.items.map fieldValue else none)).or
            (if "format" = key then (present schema.format).map Value.string else none)
      | .primitive type =>
          (Entries.get? key [typeEntry type.name]).or
            (if "format" = key then (present schema.format).map Value.string else none) := by
  rw [schemaShape]
  cases schema.type with
  | object => rfl
  | array =>
      dsimp only
      rw [← List.singleton_append, Entries.get?_append, Entries.get?_append, get?_given,
        get?_textEntry]
  | primitive type =>
      dsimp only
      rw [← List.singleton_append, Entries.get?_append, get?_textEntry]

/-- What a document has under a key for a schema comes from its shape, or else from what the
schema says about itself. -/
theorem under?_schemaValue (key : String) (schema : Schema) :
    (schemaValue schema).under? key =
      (((Entries.get? key (schemaShape schema)).or
        (if "title" = key then (present schema.title).map Value.string else none)).or
        (if "description" = key then (present schema.description).map Value.string else none)).or
        (Entries.get? key (annotations schema.choices none schema.sample)) := by
  rw [schemaValue, Value.under?, Entries.get?_append, Entries.get?_append, Entries.get?_append,
    get?_textEntry, get?_textEntry]

/-- The keys by which a schema says something about itself are not those of its shape. -/
theorem get?_schemaShape_eq_none (schema : Schema) :
    ∀ key ∈ ["title", "description", "enum", "example"],
      Entries.get? key (schemaShape schema) = none := by
  cases isType : schema.type <;>
    simp [get?_schemaShape, isType, get?_objectEntries, typeEntry, Entries.get?]

theorem typeOf?_schemaValue (schema : Schema) : typeOf? (schemaValue schema) = some schema.type := by
  rw [schemaValue, schemaShape]
  cases schema.type with
  | object => exact typeOf?_typeEntry .object _
  | array => exact typeOf?_typeEntry .array _
  | primitive type => exact typeOf?_typeEntry (.primitive type) _

theorem format_schemaValue (schema : Schema) :
    textUnder? "format" (schemaValue schema) =
      if schema.type = .object then none else present schema.format := by
  rw [textUnder?, under?_schemaValue, get?_schemaShape]
  cases schema.type <;>
    simp [get?_objectEntries, get?_annotations, typeEntry, Entries.get?, text_bind_string]

theorem requiredOf_schemaValue (bare : schema.type ≠ .object → schema.required = []) :
    requiredOf (schemaValue schema) = schema.required := by
  cases isType : schema.type with
  | object =>
      rw [schemaValue, schemaShape, isType, List.append_assoc, List.append_assoc]
      exact requiredOf_objectEntries _ _ (shapeless_append (shapeless_textEntry (by decide) _)
        (shapeless_append (shapeless_textEntry (by decide) _) (shapeless_annotations _ _ _)))
  | array | primitive _ =>
      rw [bare (by simp [isType]), requiredOf, under?_schemaValue, get?_schemaShape, isType]
      simp [typeEntry, Entries.get?, get?_annotations]

theorem propertiesOf_schemaValue (bare : schema.type ≠ .object → schema.fields = []) :
    propertiesOf (schemaValue schema).entries =
      Field.publishedFields (completeFields schema.fields) := by
  have found : Entries.get? "properties" (schemaValue schema).entries =
      if schema.type = .object then some (.table (fieldValues schema.fields)) else none := by
    refine (under?_schemaValue "properties" schema).trans ?_
    rw [get?_schemaShape]
    cases schema.type <;> simp [get?_objectEntries, typeEntry, Entries.get?, get?_annotations]
  rw [propertiesOf_eq_getD, found]
  by_cases isObject : schema.type = .object
  · rw [if_pos isObject, Option.map_some, Option.getD_some, fieldsOf, namedFieldsOf_fieldValues]
  · rw [if_neg isObject, bare isObject]
    rfl

theorem itemOf?_schemaValue (isArray : schema.items ≠ none → schema.type = .array) :
    itemOf? (schemaValue schema).entries =
      (schema.items.map completeField).map Field.published := by
  have found : Entries.get? "items" (schemaValue schema).entries = schema.items.map fieldValue := by
    refine (under?_schemaValue "items" schema).trans ?_
    rw [get?_schemaShape]
    cases isType : schema.type with
    | array => simp [typeEntry, Entries.get?, get?_annotations]
    | object | primitive _ =>
        rw [not_imp_comm.mp isArray (by simp [isType])]
        simp [get?_objectEntries, typeEntry, Entries.get?, get?_annotations]
  rw [itemOf?_eq_map, found, Option.map_map, Option.map_map]
  exact congrArg (Option.map · schema.items) (funext fieldOf_fieldValue)

/-- A complete schema can be read back from its document. -/
theorem schemaOf_schemaValue (complete : completeSchema schema = schema)
    (isArray : schema.items ≠ none → schema.type = .array) :
    schemaOf (schemaValue schema) = schema.published := by
  have described : some (schema.description.getD "") = schema.description := by
    rw [← description_completeSchema, complete]
  have bare (notObject : schema.type ≠ .object) : schema.fields = [] ∧ schema.required = [] := by
    have noFields := bare_completeSchema notObject
    rwa [complete] at noFields
  have noShape := get?_schemaShape_eq_none schema
  have title : textUnder? "title" (schemaValue schema) = present schema.title := by
    simp [textUnder?, under?_schemaValue, noShape, get?_annotations, text_bind_string]
  have description : textUnder? "description" (schemaValue schema) = present schema.description := by
    simp [textUnder?, under?_schemaValue, noShape, get?_annotations, text_bind_string]
  have sample : (schemaValue schema).under? "example" = schema.sample := by
    simp [under?_schemaValue, noShape, get?_annotations]
  have choices : (schemaValue schema).under? "enum" = schema.choices.map Value.array := by
    simp [under?_schemaValue, noShape, get?_annotations]
  rw [schemaOf, typeOf?_schemaValue, title, description, format_schemaValue, sample, choices,
    requiredOf_schemaValue fun notObject => (bare notObject).2,
    propertiesOf_schemaValue fun notObject => (bare notObject).1, itemOf?_schemaValue isArray,
    completeFields_of_complete complete, completeField_of_complete complete isArray,
    present_getD, described, Option.map_map, items_comp_array, Option.map_id]
  rfl

end Complete

/-! ## What a document depends on -/

theorem textEntry_present (key : String) (text : Option String) :
    textEntry key (present text) = textEntry key text := by
  cases text with
  | none => rfl
  | some text =>
      rw [present, Option.filter_some]
      cases isEmpty : text.isEmpty with
      | false => rfl
      | true =>
          rw [textEntry, isEmpty]
          rfl

theorem noteEntries_published (notes : Notes) :
    noteEntries notes.published = noteEntries notes := by
  rw [noteEntries, Notes.published, textEntry_present]
  rfl

mutual

theorem fieldValue_published : ∀ field : Field, fieldValue field.published = fieldValue field
  | .primitive type notes => by
      rw [Field.published, fieldValue, fieldValue, noteEntries_published]
  | .anyArray notes => by
      rw [Field.published, fieldValue, fieldValue, noteEntries_published]
  | .array item notes => by
      rw [Field.published, fieldValue, fieldValue, noteEntries_published,
        fieldValue_published item]
  | .object properties required notes => by
      rw [Field.published, fieldValue, fieldValue, noteEntries_published,
        fieldValues_publishedFields properties]
  | .reference schema notes => by
      rw [Field.published, fieldValue, fieldValue]
      rfl

theorem fieldValues_publishedFields : ∀ fields : List (String × Field),
    fieldValues (Field.publishedFields fields) = fieldValues fields
  | [] => rfl
  | (name, field) :: fields => by
      rw [Field.publishedFields, fieldValues, fieldValues, fieldValue_published field,
        fieldValues_publishedFields fields]

end

/-- The document of a schema depends on nothing that it does not tell. -/
theorem schemaValue_published (schema : Schema) :
    schemaValue schema.published = schemaValue schema := by
  have sameShape : schemaShape schema.published = schemaShape schema := by
    rw [schemaShape, schemaShape, Schema.published]
    cases schema.type with
    | object => simp only [fieldValues_publishedFields]
    | primitive type => simp [textEntry_present]
    | array =>
        have sameItem : (fun item : Field => ("items", fieldValue item.published)) =
            fun item => ("items", fieldValue item) :=
          funext fun item => by rw [fieldValue_published]
        simp [textEntry_present, Option.toList_map, Function.comp_def, sameItem]
  rw [schemaValue, schemaValue, sameShape, Schema.published, textEntry_present]

/-! ## Schemas of accepted definitions -/

variable {files otherFiles : List SourceText} {heading otherHeading : Heading}
  {definitions others : List Definition} {api other : Api} {name otherName : String}
  {first second : Schema}

theorem schemaOf_schemaValue_of_normalize (areRead : Definition.readAll files = .ok definitions)
    (isApi : normalize heading definitions = .ok api) (isSchema : (name, first) ∈ api.schemas) :
    schemaOf (schemaValue first) = first.published := by
  have isArray := ((Api.regular_of_normalize areRead isApi).schemas _ isSchema).isArray
  refine schemaOf_schemaValue ?_ isArray
  rw [Api.schemas_of_normalize isApi] at isSchema
  obtain ⟨entry, -, same⟩ := List.mem_map.mp isSchema
  obtain ⟨-, rfl⟩ := Prod.mk.inj same
  exact completeSchema_completeSchema entry.2

/-- Two schemas of definitions that were read and accepted have the same document exactly if
they differ in nothing that a document tells. -/
theorem schemaValue_eq_iff_of_normalize (areRead : Definition.readAll files = .ok definitions)
    (isApi : normalize heading definitions = .ok api) (isFirst : (name, first) ∈ api.schemas)
    (othersAreRead : Definition.readAll otherFiles = .ok others)
    (isOther : normalize otherHeading others = .ok other)
    (isSecond : (otherName, second) ∈ other.schemas) :
    schemaValue first = schemaValue second ↔ first.published = second.published := by
  constructor
  · intro same
    rw [← schemaOf_schemaValue_of_normalize areRead isApi isFirst, same,
      schemaOf_schemaValue_of_normalize othersAreRead isOther isSecond]
  · intro same
    rw [← schemaValue_published first, same, schemaValue_published]

/-- Two array schemas of which the items differ by an empty format alone. -/
def twinFiles : List SourceText :=
  [⟨"twins.toml", Text.ofLines [
    "[schemas.order]", "type = \"array\"", "items = \x7b type = \"integer\", format = \"\" \x7d",
    "[schemas.bill]", "type = \"array\"", "items = \"integer\""]⟩]

/-- Whether schemas are an order and a bill with the same document and other items. -/
def areTwins : Entries String Schema → Bool
  | [("order", first), ("bill", second)] =>
      decide (first.items ≠ second.items) && decide (schemaValue first = schemaValue second)
  | _ => false

/-- Schemas with the same document can differ by an empty format. -/
theorem schemaValue_eq_iff_of_twinFiles :
    ∃ definitions api first second, Definition.readAll twinFiles = .ok definitions ∧
      normalize {} definitions = .ok api ∧ api.schemas = [("order", first), ("bill", second)] ∧
      first.items ≠ second.items ∧ schemaValue first = schemaValue second ∧
      first.published = second.published := by
  have evaluated : ((Definition.readAll twinFiles).toOption.any fun definitions =>
      (normalize {} definitions).toOption.any fun api => areTwins api.schemas) = true := by
    decide +kernel
  obtain ⟨definitions, areRead, evaluated⟩ := exists_of_any_toOption evaluated
  obtain ⟨api, isApi, evaluated⟩ := exists_of_any_toOption evaluated
  rw [areTwins.eq_def] at evaluated
  split at evaluated
  next first second areSchemas =>
    simp only [Bool.and_eq_true, decide_eq_true_eq] at evaluated
    obtain ⟨different, sameValue⟩ := evaluated
    have isFirst : ("order", first) ∈ api.schemas := by simp [areSchemas]
    have isSecond : ("bill", second) ∈ api.schemas := by simp [areSchemas]
    exact ⟨definitions, api, first, second, areRead, isApi, areSchemas, different, sameValue,
      (schemaValue_eq_iff_of_normalize areRead isApi isFirst areRead isApi isSecond).mp sameValue⟩
  next => exact absurd evaluated Bool.false_ne_true

end OpenApi

end ApiWorkshop
