import ApiWorkshop.Api.Entry
import ApiWorkshop.Value.Literal

/-!
# From a document to a definition

This module gives a decoded document the shape of a definition.  It looks at
structure only: a schema may be named that nobody declares.  A bare type name
stands for a table with that type, and the first fault in document order ends
the reading.
-/

namespace ApiWorkshop

namespace Extract

open Entry (Table)

/-! ## Fields and schemas -/

def fieldKeys : List String :=
  ["type", "schema", "format", "items", "properties", "required", "example", "description",
    "enum", "default"]

/-- The keys of a schema table that can describe the schema itself. -/
def reservedKeys : List String :=
  ["type", "required", "items", "format", "description", "example", "enum", "title"]

/-- The field that a bare type name declares. -/
def shorthand (name : String) (notes : Notes) : Field :=
  match JsonType.ofName? name with
  | some .array => .anyArray notes
  | some .object => .object [] [] notes
  | some (.primitive type) => .primitive type notes
  | none => .reference name notes

/-- Reads what a field or parameter table says beyond the type. -/
def fieldNotes (entries : Table) (path : KeyPath) : Except Misplaced Notes := do
  let format ← Entry.string? entries "format" path
  let description ← Entry.string? entries "description" path
  let choices ← Entry.array? entries "enum" path
  .ok {
    format
    description
    sample := Entry.plain? entries "example"
    choices
    fallback := Entry.plain? entries "default" }

def withNotes (notes : Notes) : Field → Field
  | .primitive type _ => .primitive type notes
  | .anyArray _ => .anyArray notes
  | .array item _ => .array item notes
  | .object properties required _ => .object properties required notes
  | .reference schema _ => .reference schema notes

/-- Refuses entries that belong to another type than the field has. -/
def checkFieldShape (entries : Table) (path : KeyPath) (typeName : String) :
    Except Misplaced Unit :=
  if Entries.hasKey "items" entries && typeName != "array" then
    misplaced .itemsNotAllowed (path.child "items")
  else if (Entries.hasKey "properties" entries || Entries.hasKey "required" entries) &&
      typeName != "object" then
    misplaced .propertiesNotAllowed path
  else
    .ok ()

mutual

/-- Reads a field declaration: a bare type name or a table. -/
def field (path : KeyPath) : Value → Except Misplaced Field
  | .string name => .ok (shorthand name {})
  | .table entries => do
      Entry.checkKeys fieldKeys path entries
      let shape ← match Entries.get? "schema" entries, Entries.get? "type" entries with
        | some _, some _ => misplaced .typeAndSchema (path.child "schema")
        | some schema, none => do
            let schema ← Entry.string (path.child "schema") schema
            .ok (Field.reference schema {})
        | none, some type => do
            let type ← Entry.string (path.child "type") type
            match JsonType.ofName? type with
            | some .array => do
                let item ← itemIn path entries
                match item with
                | some item => .ok (Field.array item {})
                | none => .ok (Field.anyArray {})
            | some .object => do
                let properties ← propertiesIn path entries
                let required ← Entry.stringsAt entries "required" path
                .ok (Field.object properties required {})
            | _ => .ok (shorthand type {})
        | none, none => misplaced .missingType path
      checkFieldShape entries path shape.typeName
      let notes ← fieldNotes entries path
      .ok (withNotes notes shape)
  | other => misplaced (.fieldNotDeclared other.kindName) path

/-- Reads the declaration under `items` among the entries of a table. -/
def itemIn (path : KeyPath) : List (String × Value) → Except Misplaced (Option Field)
  | [] => .ok none
  | (key, value) :: entries =>
      if key = "items" then do
        let item ← field (path.child "items") value
        .ok (some item)
      else
        itemIn path entries

/-- Reads the declarations under `properties` among the entries of a table. -/
def propertiesIn (path : KeyPath) :
    List (String × Value) → Except Misplaced (List (String × Field))
  | [] => .ok []
  | (key, value) :: entries =>
      if key = "properties" then
        match value with
        | .table properties => fields (path.child "properties") properties
        | other => misplaced (.expectedTable other.kindName) (path.child "properties")
      else
        propertiesIn path entries

def fields (path : KeyPath) : List (String × Value) → Except Misplaced (List (String × Field))
  | [] => .ok []
  | (name, value) :: entries => do
      let first ← field (path.child name) value
      let rest ← fields path entries
      .ok ((name, first) :: rest)

end

/-- Whether an entry of a schema table describes the schema and does not
declare a field.  A reserved key with a value of another shape than it takes
declares a field of that name. -/
def isAttribute (type : JsonType) (entry : String × Value) : Bool :=
  match entry with
  | ("items", _) => type = .array
  | ("required", value) => match value with
    | .array _ => true
    | _ => false
  | ("enum", value) => match value with
    | .array _ => true
    | _ => false
  | ("example", value) => match value with
    | .table entries => !(Entries.hasKey "type" entries || Entries.hasKey "schema" entries)
    | _ => true
  | (key, value) => reservedKeys.contains key &&
    match value with
    | .string _ => true
    | _ => false

/-- The string under a key, if there is a string. -/
def stringIn? (key : String) (entries : Table) : Option String :=
  match Entries.get? key entries with
  | some (.string value) => some value
  | _ => none

/-- The type of a schema table; without a type name it is an object. -/
def schemaType (entries : Table) (path : KeyPath) : Except Misplaced JsonType :=
  let name := (stringIn? "type" entries).getD "object"
  match JsonType.ofName? name with
  | some type => .ok type
  | none => misplaced (.unknownType name) (path.child "type")

def schema (name : String) (entries : Table) (path : KeyPath) : Except Misplaced Schema := do
  let type ← schemaType entries path
  let attributes := entries.filter (isAttribute type)
  let fields ← fields path (entries.filter (!isAttribute type ·))
  let items ← match Entries.get? "items" attributes with
    | none => .ok none
    | some value => do
        let item ← field (path.child "items") value
        .ok (some item)
  let required ← Entry.stringsAt attributes "required" path
  .ok {
    name
    type
    title := stringIn? "title" attributes
    description := stringIn? "description" attributes
    format := stringIn? "format" attributes
    sample := Entry.plain? attributes "example"
    choices := match Entries.get? "enum" attributes with
      | some (.array choices) => some choices
      | _ => none
    required
    fields
    items }

def schemas : Table → Except Misplaced (Entries String Schema)
  | [] => .ok []
  | (name, value) :: entries => do
      let path : KeyPath := [.name "schemas", .name name]
      let inner ← Entry.table path value
      let first ← schema name inner path
      let rest ← schemas entries
      .ok ((name, first) :: rest)

/-! ## Endpoints -/

def endpointKeys : List String :=
  ["path", "method", "summary", "description", "tags", "deprecated", "body", "query",
    "path_params"]

def bodyKeys : List String := ["schema", "description", "content_type", "required"]

def parameterKeys : List String :=
  ["type", "enum", "default", "description", "required", "format", "example"]

def nonempty (value : Option String) : Option String :=
  value.filter (!·.isEmpty)

/-- The upper case of a character as far as it consists of ASCII letters: the
sharp s, the dotless i, the long s and the Latin ligatures have one too. -/
def upperCase (c : Char) : Text :=
  match c with
  | 'ß' => "SS"
  | 'ı' => "I"
  | 'ſ' => "S"
  | 'ﬀ' => "FF"
  | 'ﬁ' => "FI"
  | 'ﬂ' => "FL"
  | 'ﬃ' => "FFI"
  | 'ﬄ' => "FFL"
  | 'ﬅ' => "ST"
  | 'ﬆ' => "ST"
  | c => [c.toUpper]

/-- The method with a given name in any case. -/
def method? (name : String) : Option Method :=
  let upper := name.toList.flatMap upperCase
  Method.all.find? fun method => method.name.toList = upper

/-- The type that a parameter declares by name. -/
def parameterType (name : String) : ParameterType :=
  match JsonType.ofName? name with
  | some type => .value type
  | none => .reference name

/-- Reads a parameter: a bare type name or a table. -/
def parameter (path : KeyPath) : Value → Except Misplaced Parameter
  | .string name => .ok { type := parameterType name }
  | other => do
      let entries ← Entry.table path other
      Entry.checkKeys parameterKeys path entries
      let type ← Entry.string? entries "type" path
      let notes ← do
        let format ← Entry.string? entries "format" path
        let choices ← Entry.array? entries "enum" path
        let description ← Entry.string? entries "description" path
        .ok {
          format
          description
          sample := Entry.plain? entries "example"
          choices
          fallback := Entry.plain? entries "default" }
      let required ← Entry.bool entries "required" false path
      .ok { type := parameterType ((nonempty type).getD "string"), notes, required }

def parameters (path : KeyPath) : Table → Except Misplaced (Entries String Parameter)
  | [] => .ok []
  | (name, value) :: entries => do
      let first ← parameter (path.child name) value
      let rest ← parameters path entries
      .ok ((name, first) :: rest)

def parametersAt (entries : Table) (key : String) (path : KeyPath) :
    Except Misplaced (Entries String Parameter) := do
  let inner ← Entry.tableAt entries key path
  parameters (path.child key) inner

/-- Reads a request body: a bare schema name or a table. -/
def body (path : KeyPath) : Value → Except Misplaced Body
  | .string schema => .ok { schema }
  | other => do
      let entries ← Entry.table path other
      Entry.checkKeys bodyKeys path entries
      let schema ← match Entries.get? "schema" entries with
        | some schema => Entry.string (path.child "schema") schema
        | none => misplaced .bodyWithoutSchema path
      let description ← Entry.string? entries "description" path
      let contentType ← Entry.string? entries "content_type" path
      let required ← Entry.bool entries "required" true path
      .ok {
        schema
        description
        contentType := (nonempty contentType).getD "application/json"
        required }

/-- Reads the request body of an endpoint table, if there is one. -/
def body? (entries : Table) (path : KeyPath) : Except Misplaced (Option Body) :=
  match Entries.get? "body" entries with
  | none => .ok none
  | some value => do
      let body ← body (path.child "body") value
      .ok (some body)

/-- Reads an endpoint table.  Without tags of its own an endpoint has the name
of its file as a tag. -/
def endpoint (fileName : Option String) (path : KeyPath) (entries : Table) :
    Except Misplaced Endpoint := do
  Entry.checkKeys endpointKeys path entries
  let url ← match Entries.get? "path" entries with
    | some url => .ok url
    | none => misplaced .missingPath path
  let methodName ← match Entries.get? "method" entries with
    | some name => .ok name
    | none => misplaced .missingMethod path
  let url ← Entry.string (path.child "path") url
  let methodName ← Entry.string (path.child "method") methodName
  let method ← match method? methodName with
    | some method => .ok method
    | none => misplaced (.unknownMethod methodName) (path.child "method")
  let tags ← match Entries.get? "tags" entries with
    | some tags => Entry.strings (path.child "tags") tags
    | none => .ok (nonempty fileName).toList
  let summary ← Entry.string? entries "summary" path
  let description ← Entry.string? entries "description" path
  let deprecated ← Entry.bool entries "deprecated" false path
  let body ← body? entries path
  let query ← parametersAt entries "query" path
  let pathParameters ← parametersAt entries "path_params" path
  .ok {
    path := url
    method
    summary := summary.getD ""
    description
    tags
    deprecated
    body
    query
    pathParameters }

def endpointsFrom (fileName : Option String) :
    Nat → List Value → Except Misplaced (List Endpoint)
  | _, [] => .ok []
  | index, value :: values => do
      let path : KeyPath := [.name "endpoints", .index index]
      let entries ← Entry.table path value
      let first ← endpoint fileName path entries
      let rest ← endpointsFrom fileName (index + 1) values
      .ok (first :: rest)

def endpoints (fileName : Option String) (document : Table) :
    Except Misplaced (List Endpoint) :=
  match Entries.get? "endpoints" document with
  | none => .ok []
  | some (.array values) => endpointsFrom fileName 0 values
  | some _ => misplaced .endpointsNotTables [.name "endpoints"]

/-! ## Translations -/

/-- Reads a pair of a matcher and a label.  A matcher is kept as its display
text, so it must not be an integer that cannot be written. -/
def rule (path : KeyPath) (index : Nat) : Value → Except Misplaced Rule
  | .array [matcher, label] =>
      match matcher with
      | .scalar matcher =>
          if matcher.isWritable then do
            let label ← Entry.string ((path.item index).item 1) label
            .ok ⟨String.ofList matcher.display, label⟩
          else
            misplaced .longInteger ((path.item index).item 0)
      | _ => misplaced .matcherNotScalar (path.item index)
  | _ => misplaced .notPair (path.item index)

def rulesFrom (path : KeyPath) : Nat → List Value → Except Misplaced (List Rule)
  | _, [] => .ok []
  | index, value :: values => do
      let first ← rule path index value
      let rest ← rulesFrom path (index + 1) values
      .ok (first :: rest)

def rules (entries : Table) (path : KeyPath) : Except Misplaced (List Rule) :=
  match Entries.get? "translations" entries with
  | none => .ok []
  | some (.array values) => rulesFrom (path.child "translations") 0 values
  | some other => misplaced (.expectedPairs other.kindName) (path.child "translations")

/-- Reads the tables of the fields of a model. -/
def modelFields (model : String) : Table → Except Misplaced (List Translation)
  | [] => .ok []
  | (field, value) :: entries => do
      let path : KeyPath := [.name "models", .name model, .name field]
      let inner ← Entry.table path value
      Entry.checkKeys ["translations"] path inner
      let rules ← rules inner path
      let rest ← modelFields model entries
      .ok (⟨model, field, rules⟩ :: rest)

def models : Table → Except Misplaced (List Translation)
  | [] => .ok []
  | (model, value) :: entries => do
      let inner ← Entry.table [.name "models", .name model] value
      let first ← modelFields model inner
      let rest ← models entries
      .ok (first ++ rest)

/-! ## Documents -/

/-- The keys at the top of a document. -/
def topKeys : List String :=
  ["name", "version", "description", "endpoints", "schemas", "models"]

/-- Reads a decoded document as a definition. -/
def definition (source : String) (document : Table) : Except Misplaced Definition := do
  Entry.checkKeys topKeys [] document
  let name ← Entry.string? document "name" []
  let endpoints ← endpoints name document
  let schemaTables ← Entry.tableAt document "schemas" []
  let schemas ← schemas schemaTables
  let version ← Entry.string? document "version" []
  let description ← Entry.string? document "description" []
  let modelTables ← Entry.tableAt document "models" []
  let translations ← models modelTables
  .ok { source, name, version, description, endpoints, schemas, translations }

end Extract

end ApiWorkshop
