import ApiWorkshop.Proofs.Api.Reading
import ApiWorkshop.Proofs.Entries
import Mathlib.Data.List.Forall2

/-!
# What is read from a table

Reading goes wrong at the first fault, so a table that was read tells a lot about its
entries.  For fields, schemas, parameters and endpoints it is said here once which
entries were there, what was read from each of them, and how the parts were put
together.
-/

namespace ApiWorkshop

theorem JsonType.name_of_ofName? {name : String} {type : JsonType}
    (isType : JsonType.ofName? name = some type) : type.name = name := by
  simpa using List.find?_some isType

/-- What is read part by part comes from one of the parts. -/
theorem exists_mem_of_forall₂ {α β : Type} {isRead : α → β → Prop} {parts : List α}
    {read : List β} (areRead : List.Forall₂ isRead parts read) :
    ∀ found ∈ read, ∃ part ∈ parts, isRead part found := by
  induction areRead with
  | nil => simp
  | cons isFirst _ ih =>
      refine List.forall_mem_cons.mpr ⟨⟨_, List.mem_cons_self, isFirst⟩, fun found member => ?_⟩
      obtain ⟨part, inRest, isPart⟩ := ih found member
      exact ⟨part, List.mem_cons_of_mem _ inRest, isPart⟩

namespace Entry

theorem eq_table_of_table {path : KeyPath} {value : Value} {entries : Table}
    (isTable : table path value = .ok entries) : value = .table entries := by
  cases value with
  | table found => exact congrArg Value.table (Except.ok.inj isTable)
  | array _ | scalar _ => contradiction

theorem eq_string_of_string {path : KeyPath} {value : Value} {text : String}
    (isString : string path value = .ok text) : value = .string text := by
  cases value with
  | scalar part =>
      cases part with
      | string found => exact congrArg Value.string (Except.ok.inj isString)
      | null | bool _ | int _ | float _ | dateTime _ | date _ | time _ => contradiction
  | array _ | table _ => contradiction

/-- The entries of a value that is a table. -/
def entriesOf : Value → Table
  | .table entries => entries
  | _ => []

/-- The entries of the table under a key. -/
def tableUnder (key : String) (entries : Table) : Table :=
  ((Entries.get? key entries).map entriesOf).getD []

/-- The items of the array under a key. -/
def itemsUnder (key : String) (entries : Table) : List Value :=
  match Entries.get? key entries with
  | some (.array items) => items
  | _ => []

theorem eq_entriesOf_of_table {path : KeyPath} {value : Value} {entries : Table}
    (isTable : table path value = .ok entries) : entries = entriesOf value := by
  rw [eq_table_of_table isTable, entriesOf]

theorem eq_tableUnder_of_tableAt {entries : Table} {key : String} {path : KeyPath} {inner : Table}
    (isTable : tableAt entries key path = .ok inner) : inner = tableUnder key entries := by
  rw [tableAt] at isTable
  split at isTable
  next noEntry => simp [tableUnder, noEntry, ← Except.ok.inj isTable]
  next value isValue => simp [tableUnder, isValue, eq_entriesOf_of_table isTable]

theorem choices_of_array? {entries : Table} {path : KeyPath} {choices : Option (List Value)}
    (areRead : array? entries "enum" path = .ok choices) :
    choices = match Entries.get? "enum" entries with
      | some (.array choices) => some choices
      | _ => none := by
  rw [array?] at areRead
  split at areRead
  next isFound => simp [isFound, ← Except.ok.inj areRead]
  next isFound => simp [isFound, ← Except.ok.inj areRead]
  next => contradiction

end Entry

namespace Extract

open Entry (Table)

/-! ## Fields -/

/-- The shape of a field, without its notes, as the entries of its table declare it. -/
inductive ReadsShape (path : KeyPath) (entries : Table) : Field → Prop
  | schema (name : String) (noType : Entries.get? "type" entries = none) :
      ReadsShape path entries (.reference name {})
  | reference {name : String} (isType : Entries.get? "type" entries = some (.string name))
      (noType : JsonType.ofName? name = none) : ReadsShape path entries (.reference name {})
  | primitive {type : Primitive}
      (isType : Entries.get? "type" entries = some (.string type.name)) :
      ReadsShape path entries (.primitive type {})
  | anyArray (isType : Entries.get? "type" entries = some (.string "array"))
      (noItem : itemIn path entries = .ok none) : ReadsShape path entries (.anyArray {})
  | array (isType : Entries.get? "type" entries = some (.string "array")) {item : Field}
      (isItem : itemIn path entries = .ok (some item)) : ReadsShape path entries (.array item {})
  | object (isType : Entries.get? "type" entries = some (.string "object"))
      {properties : List (String × Field)} (required : List String)
      (areProperties : propertiesIn path entries = .ok properties) :
      ReadsShape path entries (.object properties required {})

/-- A field table has a shape, and its entries fit the shape and make the notes. -/
theorem exists_shape {path : KeyPath} {entries : Table} {read : Field}
    (isRead : field path (.table entries) = .ok read) :
    ∃ shape notes, ReadsShape path entries shape ∧
      checkFieldShape entries path shape.typeName = .ok () ∧
      fieldNotes entries path = .ok notes ∧ read = withNotes notes shape := by
  have finish {shape : Field} (isShape : ReadsShape path entries shape)
      (isFinished : (do
        checkFieldShape entries path shape.typeName
        let notes ← fieldNotes entries path
        .ok (withNotes notes shape)) = Except.ok read) :
      ∃ shape notes, ReadsShape path entries shape ∧
        checkFieldShape entries path shape.typeName = .ok () ∧
        fieldNotes entries path = .ok notes ∧ read = withNotes notes shape := by
    obtain ⟨⟨⟩, fits, isFinished⟩ := bind_eq_ok_iff.mp isFinished
    obtain ⟨notes, areNotes, same⟩ := bind_eq_ok_iff.mp isFinished
    exact ⟨shape, notes, isShape, fits, areNotes, (Except.ok.inj same).symm⟩
  rw [field] at isRead
  obtain ⟨-, -, isRead⟩ := bind_eq_ok_iff.mp isRead
  dsimp only at isRead
  split at isRead
  · contradiction
  next noType =>
    obtain ⟨schema, -, isRead⟩ := bind_eq_ok_iff.mp isRead
    exact finish (.schema schema noType) isRead
  next isType =>
    obtain ⟨name, isName, isRead⟩ := bind_eq_ok_iff.mp isRead
    rw [Entry.eq_string_of_string isName] at isType
    cases isJson : JsonType.ofName? name with
    | none =>
        rw [isJson] at isRead
        have shape : shorthand name {} = .reference name {} := by simp [shorthand, isJson]
        exact finish (.reference isType isJson) (shape ▸ isRead)
    | some type =>
        rw [isJson] at isRead
        obtain rfl := JsonType.name_of_ofName? isJson
        cases type with
        | primitive type =>
            have shape : shorthand type.name {} = .primitive type {} := by
              have isPrimitive : JsonType.ofName? type.name = some (.primitive type) := isJson
              simp [shorthand, isPrimitive]
            exact finish (.primitive isType) (shape ▸ isRead)
        | array =>
            obtain ⟨item, isItem, isRead⟩ := bind_eq_ok_iff.mp isRead
            cases item with
            | none => exact finish (.anyArray isType isItem) isRead
            | some item => exact finish (.array isType isItem) isRead
        | object =>
            obtain ⟨properties, areProperties, isRead⟩ := bind_eq_ok_iff.mp isRead
            obtain ⟨required, -, isRead⟩ := bind_eq_ok_iff.mp isRead
            exact finish (.object isType required areProperties) isRead
  · contradiction

/-- Only an array has items, and only an object has properties. -/
theorem hasKey_of_checkFieldShape {entries : Table} {path : KeyPath} {typeName : String}
    (fits : checkFieldShape entries path typeName = .ok ()) :
    (typeName ≠ "array" → Entries.hasKey "items" entries = false) ∧
      (typeName ≠ "object" → Entries.hasKey "properties" entries = false) := by
  rw [checkFieldShape] at fits
  split at fits
  · contradiction
  next noItems =>
    split at fits
    · contradiction
    next noProperties =>
      simp only [Bool.and_eq_true, bne_iff_ne, ne_eq, not_and, Decidable.not_not,
        Bool.or_eq_true] at noItems noProperties
      constructor
      · exact fun notArray => Bool.eq_false_iff.mpr fun hasItems => notArray (noItems hasItems)
      · exact fun notObject => Bool.eq_false_iff.mpr fun hasProperties =>
          notObject (noProperties (.inl hasProperties))

/-- The properties of an object are read from the table under `properties`. -/
theorem fields_of_propertiesIn {path : KeyPath} {entries : Table}
    {read : List (String × Field)} (areRead : propertiesIn path entries = .ok read) :
    ∃ path, fields path (Entry.tableUnder "properties" entries) = .ok read := by
  induction entries with
  | nil => exact ⟨path, areRead⟩
  | cons entry entries ih =>
      obtain ⟨key, value⟩ := entry
      rw [propertiesIn.eq_def] at areRead
      dsimp only at areRead
      rw [Entry.tableUnder, Entries.get?]
      split at areRead
      next isProperties =>
        cases value with
        | table properties => exact ⟨_, by rw [if_pos isProperties]; exact areRead⟩
        | array _ | scalar _ => contradiction
      next other =>
        rw [if_neg other]
        exact ih areRead

/-! ## Schemas -/

/-- A schema as the attributes and the other entries of its table declare it. -/
structure ReadsSchema (name : String) (path : KeyPath) (entries : Table) (read : Schema) :
    Prop where
  name : read.name = name
  type : schemaType entries path = .ok read.type
  fields : fields path (entries.filter (!isAttribute read.type ·)) = .ok read.fields
  items : match Entries.get? "items" (entries.filter (isAttribute read.type)) with
    | none => read.items = none
    | some value => ∃ item, field (path.child "items") value = .ok item ∧ read.items = some item
  choices : read.choices =
    match Entries.get? "enum" (entries.filter (isAttribute read.type)) with
    | some (.array choices) => some choices
    | _ => none
  sample : read.sample = Entry.plain? (entries.filter (isAttribute read.type)) "example"

theorem readsSchema {name : String} {entries : Table} {path : KeyPath} {read : Schema}
    (isRead : schema name entries path = .ok read) : ReadsSchema name path entries read := by
  obtain ⟨type, isType, isRead⟩ := bind_eq_ok_iff.mp isRead
  obtain ⟨declared, areFields, isRead⟩ := bind_eq_ok_iff.mp isRead
  dsimp only at isRead
  split at isRead
  next noItems =>
    obtain ⟨items, same, isRead⟩ := bind_eq_ok_iff.mp isRead
    obtain ⟨required, -, isRead⟩ := bind_eq_ok_iff.mp isRead
    obtain rfl := Except.ok.inj same
    obtain rfl := Except.ok.inj isRead
    exact ⟨rfl, isType, areFields, by rw [noItems], rfl, rfl⟩
  next value isValue =>
    obtain ⟨item, isItem, isRead⟩ := bind_eq_ok_iff.mp isRead
    obtain ⟨items, same, isRead⟩ := bind_eq_ok_iff.mp isRead
    obtain ⟨required, -, isRead⟩ := bind_eq_ok_iff.mp isRead
    obtain rfl := Except.ok.inj same
    obtain rfl := Except.ok.inj isRead
    refine ⟨rfl, isType, areFields, ?_, rfl, rfl⟩
    rw [isValue]
    exact ⟨item, isItem, rfl⟩

/-! ## Endpoints -/

/-- A parameter without notes is read from a bare type name, and any other one from a
table with its notes. -/
theorem notes_of_parameter {path : KeyPath} {value : Value} {read : Parameter}
    (isRead : parameter path value = .ok read) :
    (∃ name, value = .string name ∧ read.notes = {}) ∨
      ∃ entries, value = .table entries ∧
        Entry.array? entries "enum" path = .ok read.notes.choices ∧
        read.notes.fallback = Entry.plain? entries "default" ∧
        read.notes.sample = Entry.plain? entries "example" := by
  rw [parameter.eq_def] at isRead
  split at isRead
  next name => exact .inl ⟨name, rfl, Except.ok.inj isRead ▸ rfl⟩
  next =>
    obtain ⟨entries, areEntries, isRead⟩ := bind_eq_ok_iff.mp isRead
    obtain ⟨-, -, isRead⟩ := bind_eq_ok_iff.mp isRead
    obtain ⟨type, -, isRead⟩ := bind_eq_ok_iff.mp isRead
    obtain ⟨format, -, isRead⟩ := bind_eq_ok_iff.mp isRead
    obtain ⟨choices, areChoices, isRead⟩ := bind_eq_ok_iff.mp isRead
    obtain ⟨description, -, isRead⟩ := bind_eq_ok_iff.mp isRead
    obtain ⟨notes, areNotes, isRead⟩ := bind_eq_ok_iff.mp isRead
    obtain ⟨required, -, same⟩ := bind_eq_ok_iff.mp isRead
    obtain rfl := Except.ok.inj areNotes
    obtain rfl := Except.ok.inj same
    exact .inr ⟨entries, Entry.eq_table_of_table areEntries, areChoices, rfl, rfl⟩

/-- A parameter with its name and the entry that it is read from. -/
def ReadsParameter (entry : String × Value) (read : String × Parameter) : Prop :=
  read.1 = entry.1 ∧ ∃ path, parameter path entry.2 = .ok read.2

theorem forall₂_of_parameters {path : KeyPath} {entries : Table}
    {read : Entries String Parameter} (areRead : parameters path entries = .ok read) :
    List.Forall₂ ReadsParameter entries read := by
  induction entries generalizing read with
  | nil =>
      cases areRead
      exact .nil
  | cons entry entries ih =>
      obtain ⟨first, isFirst, areRead⟩ := bind_eq_ok_iff.mp areRead
      obtain ⟨rest, areRest, same⟩ := bind_eq_ok_iff.mp areRead
      obtain rfl := Except.ok.inj same
      exact .cons ⟨rfl, _, isFirst⟩ (ih areRest)

/-- Parameters are read one by one from the entries of the table under their key. -/
theorem forall₂_of_parametersAt {entries : Table} {key : String} {path : KeyPath}
    {read : Entries String Parameter} (areRead : parametersAt entries key path = .ok read) :
    List.Forall₂ ReadsParameter (Entry.tableUnder key entries) read := by
  obtain ⟨inner, isInner, areRead⟩ := bind_eq_ok_iff.mp areRead
  rw [← Entry.eq_tableUnder_of_tableAt isInner]
  exact forall₂_of_parameters areRead

/-- An endpoint as the entries of its table declare it. -/
structure ReadsEndpoint (path : KeyPath) (entries : Table) (read : Endpoint) : Prop where
  url : Entries.get? "path" entries = some (.string read.path)
  method : ∃ name, Entries.get? "method" entries = some (.string name) ∧
    method? name = some read.method
  query : parametersAt entries "query" path = .ok read.query
  pathParameters : parametersAt entries "path_params" path = .ok read.pathParameters

theorem readsEndpoint {fileName : Option String} {path : KeyPath} {entries : Table}
    {read : Endpoint} (isRead : endpoint fileName path entries = .ok read) :
    ReadsEndpoint path entries read := by
  -- With or without tags of its own, an endpoint ends with the reading of its parameters.
  have finish {url methodName : String} {method : Method} {tags : Except Misplaced (List String)}
      (isUrl : Entries.get? "path" entries = some (.string url))
      (isName : Entries.get? "method" entries = some (.string methodName))
      (isMethod : method? methodName = some method)
      (isFinished : (do
        let tags ← tags
        let summary ← Entry.string? entries "summary" path
        let description ← Entry.string? entries "description" path
        let deprecated ← Entry.bool entries "deprecated" false path
        let body ← body? entries path
        let query ← parametersAt entries "query" path
        let pathParameters ← parametersAt entries "path_params" path
        .ok {
          path := url
          method
          summary := summary.getD ""
          description
          tags
          deprecated
          body
          query
          pathParameters }) = Except.ok read) : ReadsEndpoint path entries read := by
    obtain ⟨tags, -, isFinished⟩ := bind_eq_ok_iff.mp isFinished
    obtain ⟨summary, -, isFinished⟩ := bind_eq_ok_iff.mp isFinished
    obtain ⟨description, -, isFinished⟩ := bind_eq_ok_iff.mp isFinished
    obtain ⟨deprecated, -, isFinished⟩ := bind_eq_ok_iff.mp isFinished
    obtain ⟨body, -, isFinished⟩ := bind_eq_ok_iff.mp isFinished
    obtain ⟨query, isQuery, isFinished⟩ := bind_eq_ok_iff.mp isFinished
    obtain ⟨parameters, areParameters, same⟩ := bind_eq_ok_iff.mp isFinished
    obtain rfl := Except.ok.inj same
    exact ⟨isUrl, ⟨methodName, isName, isMethod⟩, isQuery, areParameters⟩
  rw [endpoint] at isRead
  obtain ⟨-, -, isRead⟩ := bind_eq_ok_iff.mp isRead
  cases hasPath : Entries.get? "path" entries with
  | none => simp [hasPath, misplaced, Bind.bind, Except.bind] at isRead
  | some given =>
      rw [hasPath] at isRead
      obtain ⟨_, ⟨⟩, isRead⟩ := bind_eq_ok_iff.mp isRead
      cases hasMethod : Entries.get? "method" entries with
      | none => simp [hasMethod, misplaced, Bind.bind, Except.bind] at isRead
      | some name =>
          rw [hasMethod] at isRead
          obtain ⟨_, ⟨⟩, isRead⟩ := bind_eq_ok_iff.mp isRead
          obtain ⟨url, isUrl, isRead⟩ := bind_eq_ok_iff.mp isRead
          obtain ⟨methodName, isName, isRead⟩ := bind_eq_ok_iff.mp isRead
          rw [Entry.eq_string_of_string isUrl] at hasPath
          rw [Entry.eq_string_of_string isName] at hasMethod
          cases isMethod : method? methodName with
          | none => simp [isMethod, misplaced, Bind.bind, Except.bind] at isRead
          | some method =>
              rw [isMethod] at isRead
              obtain ⟨_, ⟨⟩, isRead⟩ := bind_eq_ok_iff.mp isRead
              dsimp only at isRead
              split at isRead
              · exact finish hasPath hasMethod isMethod isRead
              · exact finish hasPath hasMethod isMethod isRead

/-! ## Documents -/

theorem forall₂_of_schemas {entries : Table} {read : Entries String Schema}
    (areRead : schemas entries = .ok read) :
    List.Forall₂ (fun entry declared => declared.1 = entry.1 ∧
      ∃ path, schema entry.1 (Entry.entriesOf entry.2) path = .ok declared.2) entries read := by
  induction entries generalizing read with
  | nil =>
      cases areRead
      exact .nil
  | cons entry entries ih =>
      obtain ⟨inner, isInner, areRead⟩ := bind_eq_ok_iff.mp areRead
      obtain ⟨first, isFirst, areRead⟩ := bind_eq_ok_iff.mp areRead
      obtain ⟨rest, areRest, same⟩ := bind_eq_ok_iff.mp areRead
      obtain rfl := Except.ok.inj same
      rw [Entry.eq_entriesOf_of_table isInner] at isFirst
      exact .cons ⟨rfl, _, isFirst⟩ (ih areRest)

theorem forall₂_of_endpointsFrom {fileName : Option String} {index : Nat} {values : List Value}
    {read : List Endpoint} (areRead : endpointsFrom fileName index values = .ok read) :
    List.Forall₂ (fun value declared =>
      ∃ path, endpoint fileName path (Entry.entriesOf value) = .ok declared) values read := by
  induction values generalizing index read with
  | nil =>
      cases areRead
      exact .nil
  | cons value values ih =>
      obtain ⟨entries, areEntries, areRead⟩ := bind_eq_ok_iff.mp areRead
      obtain ⟨first, isFirst, areRead⟩ := bind_eq_ok_iff.mp areRead
      obtain ⟨rest, areRest, same⟩ := bind_eq_ok_iff.mp areRead
      obtain rfl := Except.ok.inj same
      rw [Entry.eq_entriesOf_of_table areEntries] at isFirst
      exact .cons ⟨_, isFirst⟩ (ih areRest)

/-- A definition as its document declares it: the tables under `schemas` and the items of
`endpoints` are read one by one. -/
structure ReadsDefinition (source : String) (document : Table) (read : Definition) : Prop where
  source : read.source = source
  schemas : List.Forall₂ (fun entry declared => declared.1 = entry.1 ∧
    ∃ path, schema entry.1 (Entry.entriesOf entry.2) path = .ok declared.2)
      (Entry.tableUnder "schemas" document) read.schemas
  endpoints : List.Forall₂ (fun value declared =>
    ∃ fileName path, endpoint fileName path (Entry.entriesOf value) = .ok declared)
      (Entry.itemsUnder "endpoints" document) read.endpoints

theorem readsDefinition {source : String} {document : Table} {read : Definition}
    (isRead : definition source document = .ok read) : ReadsDefinition source document read := by
  obtain ⟨-, -, isRead⟩ := bind_eq_ok_iff.mp isRead
  obtain ⟨name, -, isRead⟩ := bind_eq_ok_iff.mp isRead
  obtain ⟨endpoints, areEndpoints, isRead⟩ := bind_eq_ok_iff.mp isRead
  obtain ⟨tables, areTables, isRead⟩ := bind_eq_ok_iff.mp isRead
  obtain ⟨schemas, areSchemas, isRead⟩ := bind_eq_ok_iff.mp isRead
  obtain ⟨version, -, isRead⟩ := bind_eq_ok_iff.mp isRead
  obtain ⟨description, -, isRead⟩ := bind_eq_ok_iff.mp isRead
  obtain ⟨models, -, isRead⟩ := bind_eq_ok_iff.mp isRead
  obtain ⟨translations, -, isRead⟩ := bind_eq_ok_iff.mp isRead
  obtain rfl := Except.ok.inj isRead
  refine ⟨rfl, ?_, ?_⟩
  · rw [← Entry.eq_tableUnder_of_tableAt areTables]
    exact forall₂_of_schemas areSchemas
  · rw [Extract.endpoints] at areEndpoints
    split at areEndpoints
    next noEntry =>
      cases areEndpoints
      simp [Entry.itemsUnder, noEntry]
    next values areValues =>
      simp only [Entry.itemsUnder, areValues]
      exact (forall₂_of_endpointsFrom areEndpoints).imp fun _ _ ⟨path, isEndpoint⟩ =>
        ⟨name, path, isEndpoint⟩
    next => contradiction

end Extract

namespace Definition

/-- Definition files are read one by one, each from the document that its text decodes
to. -/
theorem exists_documents {files : List SourceText} {definitions : List Definition}
    (areRead : readAll files = .ok definitions) :
    ∃ documents : List (String × Entry.Table),
      List.Forall₂ (fun file document => document.1 = file.name ∧
        Toml.decode file.name file.text = .ok document.2) files documents ∧
      List.Forall₂ (fun document read => Extract.ReadsDefinition document.1 document.2 read)
        documents definitions := by
  induction files generalizing definitions with
  | nil =>
      cases areRead
      exact ⟨[], .nil, .nil⟩
  | cons file files ih =>
      obtain ⟨first, isFirst, areRead⟩ := bind_eq_ok_iff.mp areRead
      obtain ⟨rest, areRest, same⟩ := bind_eq_ok_iff.mp areRead
      obtain rfl := Except.ok.inj same
      obtain ⟨documents, areDecoded, areDefinitions⟩ := ih areRest
      obtain ⟨document, isDecoded, isDefinition⟩ := read_eq_ok_iff.mp isFirst
      exact ⟨(file.name, document) :: documents, .cons ⟨rfl, isDecoded⟩ areDecoded,
        .cons (Extract.readsDefinition isDefinition) areDefinitions⟩

/-- Every definition that was read has its schemas under their names. -/
theorem named_of_readAll {files : List SourceText} {definitions : List Definition}
    (areRead : readAll files = .ok definitions) :
    ∀ definition ∈ definitions, ∀ entry ∈ definition.schemas, entry.2.name = entry.1 := by
  refine forall_mem_of_readAll (fun isRead => ?_) areRead
  obtain ⟨document, -, isDefinition⟩ := read_eq_ok_iff.mp isRead
  intro entry member
  obtain ⟨declared, -, sameKey, path, isSchema⟩ :=
    exists_mem_of_forall₂ (Extract.readsDefinition isDefinition).schemas entry member
  rw [(Extract.readsSchema isSchema).name, sameKey]

end Definition

end ApiWorkshop
