import ApiWorkshop.Json.Print
import ApiWorkshop.OpenApi.OperationId
import ApiWorkshop.Text.Loose

/-!
# OpenAPI documents

The document of an API is plain data in the order of declaration.  Keys whose
value would be empty are left out, so equal APIs have equal documents.
-/

namespace ApiWorkshop

namespace OpenApi

/-- An entry for a text, unless it is missing or empty. -/
def textEntry (key : String) (text : Option String) : List (String × Value) :=
  match text with
  | some text => if text.isEmpty then [] else [(key, .string text)]
  | none => []

def stringsValue (texts : List String) : Value :=
  .array (texts.map Value.string)

/-- A reference to a schema of the document. -/
def reference (schema : String) : Entries String Value :=
  [("$ref", .string ("#/components/schemas/" ++ schema))]

/-- The entries for choices, a fallback and a sample. -/
def annotations (choices : Option (List Value)) (fallback sample : Option Value) :
    Entries String Value :=
  (choices.toList.map fun choices => ("enum", .array choices)) ++
    (fallback.toList.map fun fallback => ("default", fallback)) ++
    (sample.toList.map fun sample => ("example", sample))

def noteAnnotations (notes : Notes) : Entries String Value :=
  annotations notes.choices notes.fallback notes.sample

def typeEntry (name : String) : String × Value := ("type", .string name)

def objectEntries (properties : List (String × Value)) (required : List String) :
    Entries String Value :=
  [typeEntry "object", ("properties", .table properties)] ++
    if required.isEmpty then [] else [("required", stringsValue required)]

/-- The entries for the format, the description and the annotations of notes. -/
def noteEntries (notes : Notes) : Entries String Value :=
  textEntry "format" notes.format ++ textEntry "description" notes.description ++
    noteAnnotations notes

mutual

/-- The schema of a field.  A reference has no format. -/
def fieldValue : Field → Value
  | .primitive type notes => .table (typeEntry type.name :: noteEntries notes)
  | .anyArray notes => .table (typeEntry "array" :: noteEntries notes)
  | .array item notes =>
      .table (typeEntry "array" :: ("items", fieldValue item) :: noteEntries notes)
  | .object properties required notes =>
      .table (objectEntries (fieldValues properties) required ++ noteEntries notes)
  | .reference schema notes =>
      .table (reference schema ++ textEntry "description" notes.description ++
        noteAnnotations notes)

def fieldValues : List (String × Field) → List (String × Value)
  | [] => []
  | (name, field) :: fields => (name, fieldValue field) :: fieldValues fields

end

/-- The entries that give the type of a schema. -/
def schemaShape (schema : Schema) : Entries String Value :=
  match schema.type with
  | .object => objectEntries (fieldValues schema.fields) schema.required
  | .array =>
      typeEntry "array" ::
        (schema.items.toList.map fun item => ("items", fieldValue item)) ++
        textEntry "format" schema.format
  | .primitive type => typeEntry type.name :: textEntry "format" schema.format

def schemaValue (schema : Schema) : Value :=
  .table (schemaShape schema ++ textEntry "title" schema.title ++
    textEntry "description" schema.description ++
    annotations schema.choices none schema.sample)

/-- Where a parameter stands. -/
inductive ParameterPlace where
  | path
  | query
  deriving DecidableEq, Repr

def ParameterPlace.name : ParameterPlace → String
  | path => "path"
  | query => "query"

def parameterSchema (parameter : Parameter) : Value :=
  let shape := match parameter.type with
    | .value type => [typeEntry type.name]
    | .reference schema => reference schema
  .table (shape ++ textEntry "format" parameter.notes.format ++
    noteAnnotations parameter.notes)

/-- A parameter of an operation; in the path it is always required. -/
def parameterValue (place : ParameterPlace) (entry : String × Parameter) : Value :=
  let parameter := entry.2
  .table ([("name", .string entry.1), ("in", .string place.name)] ++
    textEntry "description" parameter.notes.description ++
    [("required", .bool (decide (place = .path) || parameter.required)),
      ("schema", parameterSchema parameter)])

/-- The parameters of an operation: those of the path, then those of the query. -/
def parameterValues (endpoint : Endpoint) : List Value :=
  endpoint.pathParameters.map (parameterValue .path) ++
    endpoint.query.map (parameterValue .query)

def bodyValue (body : Body) : Value :=
  .table (textEntry "description" body.description ++
    [("required", .bool body.required),
      ("content", .table [(body.contentType, .table [("schema", .table (reference body.schema))])])])

def responses : Value :=
  .table [("200", .table [("description", .string "Successful response")])]

def operationValue (endpoint : Endpoint) : Value :=
  let parameters := parameterValues endpoint
  .table (
    (if endpoint.tags.isEmpty then [] else [("tags", stringsValue endpoint.tags)]) ++
    textEntry "summary" (some endpoint.summary) ++
    textEntry "description" endpoint.description ++
    [("operationId", .string (operationId endpoint))] ++
    (if endpoint.deprecated then [("deprecated", .bool true)] else []) ++
    (if parameters.isEmpty then [] else [("parameters", .array parameters)]) ++
    (endpoint.body.toList.map fun body => ("requestBody", bodyValue body)) ++
    [("responses", responses)])

/-- The operations of endpoints by path and method, in the order of the first
endpoint on each path. -/
def operations (endpoints : List Endpoint) : Entries String (Entries String Value) :=
  endpoints.foldl
    (fun paths endpoint =>
      let methods := (Entries.get? endpoint.path paths).getD []
      Entries.put endpoint.path
        (Entries.put endpoint.method.key (operationValue endpoint) methods) paths)
    []

def tagValue (tag : Tag) : Value :=
  .table (("name", .string tag.name) :: textEntry "description" (some tag.description))

def document (api : Api) : Value :=
  .table (
    [("openapi", .string "3.1.0"),
      ("info", .table ([("title", .string api.title.label), ("version", .string api.version.label)] ++
        textEntry "description" (some api.description)))] ++
    (if api.tags.isEmpty then [] else [("tags", .array (api.tags.map tagValue))]) ++
    [("paths", .table ((operations api.endpoints).map fun (path, methods) =>
        (path, .table methods))),
      ("components", .table [("schemas", .table (api.schemas.map fun (name, schema) =>
        (name, schemaValue schema)))])])

/-- The text of the document of an API.  It has bytes if the title and the
version do. -/
def draft (api : Api) : Except Unwritable Draft := do
  let text ← Json.documentOf (document api)
  .ok ⟨text, api.title.isWhole && api.version.isWhole⟩

end OpenApi

end ApiWorkshop
