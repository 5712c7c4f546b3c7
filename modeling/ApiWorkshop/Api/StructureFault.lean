import ApiWorkshop.Api.KeyPath
import ApiWorkshop.Api.Model

/-!
# Faults in the structure of a definition

A definition file can be a well-formed document and still not have the shape of
a definition.  The first fault met ends the reading and is told together with
the path of the value it is about.
-/

namespace ApiWorkshop

/-- What can be wrong with the structure of a definition. -/
inductive StructureFault where
  | unknownKey (key container : String)
  | expectedTable (kind : String)
  | expectedString (kind : String)
  | expectedBoolean (kind : String)
  | expectedStrings (kind : String)
  | expectedArray (kind : String)
  | expectedPairs (kind : String)
  | endpointsNotTables
  | missingPath
  | missingMethod
  | unknownMethod (name : String)
  | bodyWithoutSchema
  | unknownType (name : String)
  | fieldNotDeclared (kind : String)
  | typeAndSchema
  | missingType
  | itemsNotAllowed
  | propertiesNotAllowed
  | notPair
  | matcherNotScalar
  | longInteger
  deriving DecidableEq, Repr

namespace StructureFault

def message : StructureFault → String
  | unknownKey key container => s!"unknown key '{key}' in {container}"
  | expectedTable kind => s!"expected a table, got {kind}"
  | expectedString kind => s!"expected a string, got {kind}"
  | expectedBoolean kind => s!"expected a boolean, got {kind}"
  | expectedStrings kind => s!"expected an array of strings, got {kind}"
  | expectedArray kind => s!"expected an array, got {kind}"
  | expectedPairs kind => s!"expected an array of [matcher, label] pairs, got {kind}"
  | endpointsNotTables => "'endpoints' must be an array of tables ([[endpoints]])"
  | missingPath => "endpoint is missing 'path'"
  | missingMethod => "endpoint is missing 'method'"
  | unknownMethod name =>
      let choices := String.intercalate ", " (Method.all.map Method.name)
      s!"unknown HTTP method '{name}' (expected one of {choices})"
  | bodyWithoutSchema => "request body is missing 'schema'"
  | unknownType name =>
      let choices := String.intercalate ", " (JsonType.all.map JsonType.name)
      s!"unknown type '{name}' (expected one of {choices})"
  | fieldNotDeclared kind => s!"field must be a type name or a table, got {kind}"
  | typeAndSchema => "a field may declare 'type' or 'schema', not both"
  | missingType => "field is missing 'type'"
  | itemsNotAllowed => "'items' is only allowed on array fields"
  | propertiesNotAllowed => "'properties' and 'required' are only allowed on object fields"
  | notPair => "each translation must be a [matcher, label] pair"
  | matcherNotScalar => "translation matcher must be a scalar value"
  | longInteger => "translation matcher has too many digits"

end StructureFault

/-- A fault together with the path of the value it is about. -/
structure Misplaced where
  fault : StructureFault
  path : KeyPath
  deriving DecidableEq, Repr

/-- The wording of a fault with its path. -/
def Misplaced.cause (misplaced : Misplaced) : String :=
  s!"{misplaced.fault.message} (at {misplaced.path.text})"

def misplaced {α : Type} (fault : StructureFault) (path : KeyPath) : Except Misplaced α :=
  .error ⟨fault, path⟩

end ApiWorkshop
