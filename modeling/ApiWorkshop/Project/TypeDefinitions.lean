import ApiWorkshop.Api.Model
import ApiWorkshop.Text.Identifier
import ApiWorkshop.Text.Words

/-!
# Types of a project

Each schema of an API gives the generated project a type.  An object schema is
a record, an array schema an alias of a list and, where its items are objects
of their own, a record for the items.  All other schemas are aliases of single
types.
-/

namespace ApiWorkshop

namespace Primitive

/-- The name of a single type in the generated project. -/
def annotation : Primitive → Text
  | string => "str"
  | integer => "int"
  | number => "float"
  | boolean => "bool"

end Primitive

namespace Field

/-- The type of a field in the generated project.  Objects without a schema of
their own are typed loosely. -/
def annotation : Field → Text
  | primitive type _ => type.annotation
  | anyArray _ => "list[Any]"
  | array item _ => "list[" ++ annotation item ++ "]"
  | object _ _ _ => "dict[str, Any]"
  | reference schema _ => Text.pascalCase schema

end Field

/-- A field of a record. -/
structure RecordField where
  name : String
  annotation : Text
  required : Bool
  deriving DecidableEq, Repr

/-- A type with named fields. -/
structure RecordType where
  name : Text
  description : String
  fields : List RecordField
  deriving DecidableEq, Repr

/-- A name for another type. -/
structure TypeAlias where
  name : Text
  annotation : Text
  deriving DecidableEq, Repr

namespace RecordType

/-- A record for fields of which some are required. -/
def make (name : Text) (description : Option String) (fields : List (String × Field))
    (required : List String) : RecordType :=
  { name
    description := description.getD ""
    fields := fields.map fun (field, type) =>
      { name := field
        annotation := type.annotation
        required := required.contains field } }

/-- Whether a name can stand as a field in the body of a class. -/
def isFieldName (name : String) : Bool :=
  Text.isIdentifier name && !Text.keywords.contains name

/-- Whether a record has to be written as a call, because one of its field
names cannot stand in the body of a class. -/
def functional (record : RecordType) : Bool :=
  record.fields.any fun field => !isFieldName field.name

end RecordType

namespace Schema

/-- The name of the type of a schema. -/
def typeName (schema : String × Schema) : Text :=
  Text.pascalCase schema.1

/-- The name of the record for the items of an array schema. -/
def itemTypeName (schema : String × Schema) : Text :=
  typeName schema ++ "Item"

/-- The record that a schema gives, if it gives one. -/
def record? (schema : String × Schema) : Option RecordType :=
  let description := schema.2.description
  match schema.2.type, schema.2.items with
  | .object, _ =>
      some (RecordType.make (typeName schema) description schema.2.fields schema.2.required)
  | .array, some (.object properties required _) =>
      some (RecordType.make (itemTypeName schema) description properties required)
  | _, _ => none

/-- The alias of a single type that a schema gives, if it gives one. -/
def singleAlias? (schema : String × Schema) : Option TypeAlias :=
  match schema.2.type with
  | .primitive type => some ⟨typeName schema, type.annotation⟩
  | _ => none

/-- The alias of a list that a schema gives, if it gives one. -/
def listAlias? (schema : String × Schema) : Option TypeAlias :=
  match schema.2.type, schema.2.items with
  | .array, some (.object _ _ _) =>
      some ⟨typeName schema, "list[" ++ itemTypeName schema ++ "]"⟩
  | .array, some item => some ⟨typeName schema, "list[" ++ item.annotation ++ "]"⟩
  | .array, none => some ⟨typeName schema, "list[Any]"⟩
  | _, _ => none

end Schema

namespace Api

/-- The records of an API, in the order of its schemas. -/
def records (api : Api) : List RecordType :=
  api.schemas.filterMap Schema.record?

/-- The aliases of an API; those of single types come first, so that those of
lists can refer to them. -/
def aliases (api : Api) : List TypeAlias :=
  api.schemas.filterMap Schema.singleAlias? ++ api.schemas.filterMap Schema.listAlias?

end Api

end ApiWorkshop
