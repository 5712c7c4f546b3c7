import ApiWorkshop.Api.Check

/-!
# Normalizing definitions

Definitions without problems are merged into one API in the order of the files.
On the way missing descriptions become empty, every placeholder of a path gets
a required parameter, and the fields of an array schema move onto its items.
-/

namespace ApiWorkshop

namespace Normalize

/-- Notes with an empty description where there is none. -/
def completeNotes (notes : Notes) : Notes :=
  { notes with description := some (notes.description.getD "") }

mutual

/-- A field with every missing description empty. -/
def completeField : Field → Field
  | .primitive type notes => .primitive type (completeNotes notes)
  | .anyArray notes => .anyArray (completeNotes notes)
  | .array item notes => .array (completeField item) (completeNotes notes)
  | .object properties required notes =>
      .object (completeFields properties) required (completeNotes notes)
  | .reference schema notes => .reference schema (completeNotes notes)

/-- Named fields with every missing description empty. -/
def completeFields : List (String × Field) → List (String × Field)
  | [] => []
  | (name, field) :: fields => (name, completeField field) :: completeFields fields

end

/-- A schema with every missing description empty and, on an array schema, the
fields moved onto the items. -/
def completeSchema (schema : Schema) : Schema :=
  let described := { schema with description := some (schema.description.getD "") }
  match schema.type with
  | .array =>
      if schema.fields.isEmpty then
        { described with required := [], items := schema.items.map completeField }
      else
        { described with
          fields := []
          required := []
          items := some (completeField (Check.foldItem schema).1) }
  | .object => { described with fields := completeFields schema.fields }
  | .primitive _ => { described with fields := [], required := [] }

/-- A parameter with an empty description where there is none. -/
def completeParameter (parameter : Parameter) : Parameter :=
  { parameter with notes := completeNotes parameter.notes }

/-- The parameter of a placeholder: the declared one, or else a string; it is
always required. -/
def placeholderParameter (declared : Entries String Parameter) (name : String) : Parameter :=
  match Entries.get? name declared with
  | some parameter => { completeParameter parameter with required := true }
  | none => { notes := { description := some "" }, required := true }

/-- An endpoint with every missing description empty and a parameter for every
placeholder, in the order of the path. -/
def completeEndpoint (endpoint : Endpoint) : Endpoint :=
  { endpoint with
    description := some (endpoint.description.getD "")
    query := endpoint.query.map fun (name, parameter) => (name, completeParameter parameter)
    pathParameters := (placeholders endpoint.path).eraseDups.map fun name =>
      (name, placeholderParameter endpoint.pathParameters name)
    body := endpoint.body.map fun body =>
      { body with description := some (body.description.getD "") } }

/-- The first text that is there and not empty. -/
def firstText {α : Type} (isEmpty : α → Bool) (texts : List (Option α)) : Option α :=
  texts.findSome? fun text => text.filter (!isEmpty ·)

/-- The first string that is there and not empty, after a loose text that goes
before them. -/
def firstAfter (given : Option LooseText) (texts : List (Option String)) : Option LooseText :=
  firstText List.isEmpty (given :: texts.map fun text => text.map LooseText.ofString)

/-- The tags of the named files, each name once. -/
def tags (seen : List String) : List Definition → List Tag
  | [] => []
  | definition :: definitions =>
      match definition.name with
      | some name =>
          if name.isEmpty || seen.contains name then
            tags seen definitions
          else
            ⟨name, definition.description.getD ""⟩ :: tags (name :: seen) definitions
      | none => tags seen definitions

end Normalize

/-- The title, version and description that are given for an API and go before
what the files say. -/
structure Heading where
  title : Option LooseText := none
  version : Option LooseText := none
  description : Option String := none
  deriving DecidableEq, Repr

namespace Api

open Normalize Check

/-- The API of definitions that have no problems. -/
def merge (heading : Heading) (definitions : List Definition) : Api :=
  { title := (firstAfter heading.title (definitions.map Definition.name)).getD "API"
    version := (firstAfter heading.version (definitions.map Definition.version)).getD "0.1.0"
    description := (firstText String.isEmpty
      (heading.description :: definitions.map Definition.description)).getD ""
    tags := Normalize.tags [] definitions
    endpoints := (firsts (splitEndpoints definitions)).map fun declared =>
      completeEndpoint declared.value.2
    schemas := (firsts (splitSchemas definitions)).map fun declared =>
      (declared.value.1, completeSchema declared.value.2)
    translations := (firsts (splitTranslations definitions)).map Declared.value }

end Api

/-- Why definitions do not make an API. -/
inductive Rejection where
  /-- The definitions have problems. -/
  | problems (problems : List Problem)
  /-- The definitions cannot be checked to the end. -/
  | unchecked (failure : CheckFailure)
  deriving DecidableEq, Repr

/-- The API of a list of definitions. -/
def normalize (heading : Heading) (definitions : List Definition) : Except Rejection Api :=
  match problems definitions with
  | .error failure => .error (.unchecked failure)
  | .ok [] => .ok (Api.merge heading definitions)
  | .ok found => .error (.problems found)

end ApiWorkshop
