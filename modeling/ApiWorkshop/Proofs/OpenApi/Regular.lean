import ApiWorkshop.Proofs.Api.Completed
import ApiWorkshop.Proofs.OpenApi.Operations

/-!
# Documents are regular

No table of the document of a regular API has a key twice.  The keys of most
tables are some of a few given ones, in order; the keys of the others are names
that are declared once.
-/

namespace ApiWorkshop

namespace OpenApi

/-- Entries with some of the given keys, in order, and with regular values. -/
structure Listed (names : List String) (entries : List (String × Value)) : Prop where
  names : (Entries.keys entries).Sublist names
  regular : ∀ entry ∈ entries, entry.2.Regular Scalar.IsRead

namespace Listed

variable {names others : List String} {entries rest : List (String × Value)}

theorem none (names : List String) : Listed names [] :=
  ⟨List.nil_sublist names, nofun⟩

theorem append (areListed : Listed names entries) (areOthers : Listed others rest) :
    Listed (names ++ others) (entries ++ rest) := by
  refine ⟨?_, List.forall_mem_append.mpr ⟨areListed.regular, areOthers.regular⟩⟩
  rw [Entries.keys_append]
  exact areListed.names.append areOthers.names

theorem cons {key : String} {value : Value} (regular : value.Regular Scalar.IsRead)
    (areListed : Listed names entries) : Listed (key :: names) ((key, value) :: entries) :=
  ⟨areListed.names.cons_cons key, List.forall_mem_cons.mpr ⟨regular, areListed.regular⟩⟩

theorem single (key : String) {value : Value} (regular : value.Regular Scalar.IsRead) :
    Listed [key] [(key, value)] :=
  .cons regular (.none [])

theorem optional {condition : Prop} [Decidable condition] (areListed : Listed names entries) :
    Listed names (if condition then [] else entries) := by
  split
  · exact .none names
  · exact areListed

theorem table (areListed : Listed names entries) (distinct : names.Nodup) :
    (Value.table entries).Regular Scalar.IsRead :=
  .table (distinct.sublist areListed.names) areListed.regular

end Listed

/-! ## Entries -/

theorem regular_string (text : String) : (Value.string text).Regular Scalar.IsRead :=
  .scalar trivial

theorem regular_bool (part : Bool) : (Value.bool part).Regular Scalar.IsRead :=
  .scalar trivial

theorem regular_stringsValue (texts : List String) :
    (stringsValue texts).Regular Scalar.IsRead :=
  .array (List.forall_mem_map.mpr fun text _ => regular_string text)

theorem listed_textEntry (key : String) (text : Option String) :
    Listed [key] (textEntry key text) := by
  cases text with
  | none => exact .none [key]
  | some text => exact .optional (.single _ (regular_string text))

theorem listed_annotations {choices : Option (List Value)} {fallback sample : Option Value}
    (areChoices : ∀ found ∈ choices, (Value.array found).Regular Scalar.IsRead)
    (isFallback : ∀ found ∈ fallback, found.Regular Scalar.IsPlain)
    (isSample : ∀ found ∈ sample, found.Regular Scalar.IsPlain) :
    Listed ["enum", "default", "example"] (annotations choices fallback sample) := by
  have given {key : String} {value : Option Value}
      (isRegular : ∀ found ∈ value, found.Regular Scalar.IsPlain) :
      Listed [key] (value.toList.map fun found => (key, found)) := by
    cases value with
    | none => exact .none [key]
    | some found => exact .single _ ((isRegular found rfl).imp fun _ => And.left)
  have listed : Listed ["enum"] (choices.toList.map fun found => ("enum", .array found)) := by
    cases choices with
    | none => exact .none ["enum"]
    | some found => exact .single _ (areChoices found rfl)
  exact (listed.append (given isFallback)).append (given isSample)

theorem listed_noteAnnotations {notes : Notes} (areNotes : notes.Regular) :
    Listed ["enum", "default", "example"] (noteAnnotations notes) :=
  listed_annotations areNotes.choices areNotes.fallback areNotes.sample

theorem listed_noteEntries {notes : Notes} (areNotes : notes.Regular) :
    Listed ["format", "description", "enum", "default", "example"] (noteEntries notes) :=
  ((listed_textEntry "format" _).append (listed_textEntry "description" _)).append
    (listed_noteAnnotations areNotes)

theorem listed_objectEntries {properties : List (String × Value)}
    (regular : (Value.table properties).Regular Scalar.IsRead) (required : List String) :
    Listed ["type", "properties", "required"] (objectEntries properties required) :=
  .append (.cons (regular_string "object") (.single _ regular))
    (.optional (.single _ (regular_stringsValue required)))

theorem listed_reference (schema : String) : Listed ["$ref"] (reference schema) :=
  .single _ (regular_string _)

/-! ## Schemas -/

theorem regular_fieldValues {fields : List (String × Field)}
    (distinct : (fields.map Prod.fst).Nodup)
    (areRegular : ∀ entry ∈ fields, (fieldValue entry.2).Regular Scalar.IsRead) :
    (Value.table (fieldValues fields)).Regular Scalar.IsRead := by
  refine .table ?_ ?_
  · rwa [keys_fieldValues]
  · rw [fieldValues_eq_map]
    exact List.forall_mem_map.mpr areRegular

theorem regular_fieldValue {field : Field} (regular : field.Regular) :
    (fieldValue field).Regular Scalar.IsRead := by
  induction regular with
  | primitive type areNotes =>
      exact (Listed.cons (regular_string type.name) (listed_noteEntries areNotes)).table (by decide)
  | anyArray areNotes =>
      exact (Listed.cons (regular_string "array") (listed_noteEntries areNotes)).table (by decide)
  | array _ areNotes ih =>
      exact (Listed.cons (regular_string "array") (.cons ih (listed_noteEntries areNotes))).table
        (by decide)
  | object required distinct _ areNotes ih =>
      exact ((listed_objectEntries (regular_fieldValues distinct ih) required).append
        (listed_noteEntries areNotes)).table (by decide)
  | reference schema areNotes =>
      exact (((listed_reference schema).append (listed_textEntry "description" _)).append
        (listed_noteAnnotations areNotes)).table (by decide)

theorem regular_schemaValue {schema : Schema} (regular : schema.Regular) :
    (schemaValue schema).Regular Scalar.IsRead := by
  have noFallback : ∀ found ∈ (none : Option Value), found.Regular Scalar.IsPlain := nofun
  have behind := ((listed_textEntry "title" schema.title).append
    (listed_textEntry "description" schema.description)).append
      (listed_annotations regular.choices noFallback regular.sample)
  have fields := regular_fieldValues regular.distinct fun entry isField =>
    regular_fieldValue (regular.fields entry isField)
  have shape : ∃ names, Listed names (schemaShape schema) ∧
      (names ++ ["title", "description", "enum", "default", "example"]).Nodup := by
    rw [schemaShape]
    split
    · exact ⟨_, listed_objectEntries fields _, by decide⟩
    · have items : Listed ["items"]
          (schema.items.toList.map fun item => ("items", fieldValue item)) := by
        cases isItem : schema.items with
        | none => exact .none ["items"]
        | some item => exact .single _ (regular_fieldValue (regular.items item isItem))
      exact ⟨_, (Listed.cons (regular_string "array") items).append (listed_textEntry "format" _),
        by decide⟩
    next type _ =>
      exact ⟨_, .cons (regular_string type.name) (listed_textEntry "format" _), by decide⟩
  obtain ⟨names, areListed, distinct⟩ := shape
  rw [schemaValue, List.append_assoc, List.append_assoc, ← List.append_assoc (textEntry "title" _)]
  exact (areListed.append behind).table distinct

/-! ## Operations -/

theorem regular_parameterSchema {parameter : Parameter} (areNotes : parameter.notes.Regular) :
    (parameterSchema parameter).Regular Scalar.IsRead := by
  have behind := (listed_textEntry "format" parameter.notes.format).append
    (listed_noteAnnotations areNotes)
  rw [parameterSchema, List.append_assoc]
  cases parameter.type with
  | value type => exact (Listed.append (.single _ (regular_string type.name)) behind).table (by decide)
  | reference schema => exact ((listed_reference schema).append behind).table (by decide)

theorem regular_parameterValue {entry : String × Parameter} (areNotes : entry.2.notes.Regular)
    (place : ParameterPlace) : (parameterValue place entry).Regular Scalar.IsRead := by
  have front : Listed ["name", "in"] [("name", .string entry.1), ("in", .string place.name)] :=
    .cons (regular_string _) (.single _ (regular_string _))
  have back : Listed ["required", "schema"]
      [("required", .bool (decide (place = .path) || entry.2.required)),
        ("schema", parameterSchema entry.2)] :=
    .cons (regular_bool _) (.single _ (regular_parameterSchema areNotes))
  exact ((front.append (listed_textEntry "description" _)).append back).table (by decide)

theorem regular_bodyValue (body : Body) : (bodyValue body).Regular Scalar.IsRead := by
  have schema := (listed_reference body.schema).table (by decide)
  have medium := (Listed.single "schema" schema).table (by decide)
  have content := (Listed.single body.contentType medium).table (by simp)
  have back : Listed ["required", "content"] [("required", .bool body.required),
      ("content", .table [(body.contentType, .table [("schema", .table (reference body.schema))])])] :=
    .cons (regular_bool _) (.single _ content)
  exact ((listed_textEntry "description" _).append back).table (by decide)

theorem regular_responses : responses.Regular Scalar.IsRead := by
  have response := (Listed.single "description" (regular_string "Successful response")).table
    (by decide)
  exact (Listed.single "200" response).table (by decide)

theorem regular_operationValue {endpoint : Endpoint}
    (areNotes : ∀ entry ∈ endpoint.pathParameters ++ endpoint.query, entry.2.notes.Regular) :
    (operationValue endpoint).Regular Scalar.IsRead := by
  have parameters : (Value.array (parameterValues endpoint)).Regular Scalar.IsRead := by
    obtain ⟨inPath, inQuery⟩ := List.forall_mem_append.mp areNotes
    refine .array (List.forall_mem_append.mpr ⟨?_, ?_⟩)
    · exact List.forall_mem_map.mpr fun entry isEntry =>
        regular_parameterValue (inPath entry isEntry) .path
    · exact List.forall_mem_map.mpr fun entry isEntry =>
        regular_parameterValue (inQuery entry isEntry) .query
  have tags : Listed ["tags"]
      (if endpoint.tags.isEmpty then [] else [("tags", stringsValue endpoint.tags)]) :=
    .optional (.single _ (regular_stringsValue endpoint.tags))
  have deprecated : Listed ["deprecated"]
      (if endpoint.deprecated then [("deprecated", .bool true)] else []) := by
    split
    · exact .single _ (regular_bool true)
    · exact .none ["deprecated"]
  have given : Listed ["parameters"] (if (parameterValues endpoint).isEmpty then [] else
      [("parameters", .array (parameterValues endpoint))]) :=
    .optional (.single _ parameters)
  have body : Listed ["requestBody"]
      (endpoint.body.toList.map fun body => ("requestBody", bodyValue body)) := by
    cases endpoint.body with
    | none => exact .none ["requestBody"]
    | some body => exact .single _ (regular_bodyValue body)
  have identifier : Listed ["operationId"] [("operationId", .string (operationId endpoint))] :=
    .single _ (regular_string _)
  have front := ((tags.append (listed_textEntry "summary" (some endpoint.summary))).append
    (listed_textEntry "description" endpoint.description)).append identifier
  exact ((((front.append deprecated).append given).append body).append
    (.single "responses" regular_responses)).table (by decide)

/-- The paths of a document have distinct keys, and so have the methods on each. -/
theorem distinctKeys_operations (endpoints : List Endpoint) :
    Entries.DistinctKeys (operations endpoints) := by
  have nothing : Entries.DistinctKeys ([] : Entries String (Entries String Value)) :=
    ⟨List.nodup_nil, nofun⟩
  exact List.foldlRecOn endpoints _ nothing fun table distinct endpoint _ =>
    Entries.distinctKeys_put distinct endpoint.path endpoint.method.key (operationValue endpoint)

theorem regular_operations {endpoints : List Endpoint}
    (areRegular : ∀ endpoint ∈ endpoints, (operationValue endpoint).Regular Scalar.IsRead) :
    (Value.table ((operations endpoints).map fun entry => (entry.1, .table entry.2))).Regular
      Scalar.IsRead := by
  obtain ⟨distinct, distinctMethods⟩ := distinctKeys_operations endpoints
  refine .table ?_ (List.forall_mem_map.mpr fun entry isEntry => ?_)
  · rwa [Entries.keys, List.map_map]
  · refine .table (distinctMethods entry isEntry) fun found isFound => ?_
    obtain ⟨endpoint, isEndpoint, -, same⟩ :=
      comesFrom_operations endpoints entry isEntry found isFound
    exact same ▸ areRegular endpoint isEndpoint

/-! ## Documents -/

theorem regular_tagValue (tag : Tag) : (tagValue tag).Regular Scalar.IsRead :=
  (Listed.cons (regular_string tag.name) (listed_textEntry "description" _)).table (by decide)

/-- The document of a regular API is regular. -/
theorem regular_document {api : Api} (regular : api.Regular) :
    (document api).Regular Scalar.IsRead := by
  have schemas : (Value.table (api.schemas.map fun entry =>
      (entry.1, schemaValue entry.2))).Regular Scalar.IsRead := by
    refine .table ?_ (List.forall_mem_map.mpr fun entry isSchema =>
      regular_schemaValue (regular.schemas entry isSchema))
    rw [Entries.keys, List.map_map]
    exact regular.names
  have paths := regular_operations fun endpoint isEndpoint =>
    regular_operationValue (regular.parameters endpoint isEndpoint)
  have heading : Listed ["title", "version"]
      [("title", .string api.title.label), ("version", .string api.version.label)] :=
    .cons (regular_string _) (.single _ (regular_string _))
  have info := (heading.append (listed_textEntry "description" (some api.description))).table
    (by decide)
  have tags : Listed ["tags"]
      (if api.tags.isEmpty then [] else [("tags", .array (api.tags.map tagValue))]) :=
    .optional (.single _ (.array (List.forall_mem_map.mpr fun tag _ => regular_tagValue tag)))
  have components := (Listed.single "schemas" schemas).table (by decide)
  have front : Listed ["openapi", "info"] [("openapi", .string "3.1.0"), ("info", _)] :=
    .cons (regular_string "3.1.0") (.single "info" info)
  exact ((front.append tags).append (.cons paths (.single "components" components))).table
    (by decide)

end OpenApi

end ApiWorkshop
