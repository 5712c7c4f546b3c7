import ApiWorkshop.Text.Loose
import ApiWorkshop.Value.Basic

/-!
# API definitions

The parts of an API definition: endpoints with their parameters and request
bodies, named schemas with their fields, and translation tables for the fields
of models.  A definition holds what one file says; an API is what all files of
a project say together, checked and completed.
-/

namespace ApiWorkshop

/-- The methods that an endpoint may have. -/
inductive Method where
  | get
  | post
  | put
  | delete
  | patch
  deriving DecidableEq, Repr

namespace Method

/-- All methods in the order in which messages list them. -/
def all : List Method := [get, post, put, delete, patch]

/-- The name of a method, in upper case. -/
def name : Method → String
  | get => "GET"
  | post => "POST"
  | put => "PUT"
  | delete => "DELETE"
  | patch => "PATCH"

/-- The key of a method in a document: its name in lower case. -/
def key : Method → String
  | get => "get"
  | post => "post"
  | put => "put"
  | delete => "delete"
  | patch => "patch"

end Method

/-- The types of single values. -/
inductive Primitive where
  | string
  | integer
  | number
  | boolean
  deriving DecidableEq, Repr

/-- The types of values. -/
inductive JsonType where
  | primitive (type : Primitive)
  | array
  | object
  deriving DecidableEq, Repr

def Primitive.name : Primitive → String
  | string => "string"
  | integer => "integer"
  | number => "number"
  | boolean => "boolean"

namespace JsonType

def name : JsonType → String
  | primitive type => type.name
  | array => "array"
  | object => "object"

/-- All types in the order in which messages list them. -/
def all : List JsonType :=
  [array, primitive .boolean, primitive .integer, primitive .number, object,
    primitive .string]

def ofName? (name : String) : Option JsonType :=
  all.find? fun type => type.name = name

end JsonType

/-- What a declaration says about a value beyond its type. -/
structure Notes where
  format : Option String := none
  description : Option String := none
  /-- A value as it could be. -/
  sample : Option Value := none
  /-- The values that are allowed, if only some are. -/
  choices : Option (List Value) := none
  /-- The value that is taken when there is none. -/
  fallback : Option Value := none
  deriving DecidableEq, Repr, Inhabited

/-- A field of a schema, an item of an array or a property of an object. -/
inductive Field where
  /-- A single value. -/
  | primitive (type : Primitive) (notes : Notes)
  /-- An array whose items are not described. -/
  | anyArray (notes : Notes)
  /-- An array of items. -/
  | array (item : Field) (notes : Notes)
  /-- An object with its own properties. -/
  | object (properties : List (String × Field)) (required : List String) (notes : Notes)
  /-- A value described by a named schema. -/
  | reference (schema : String) (notes : Notes)
  deriving Repr, Inhabited

namespace Field

mutual

def decEq : (first second : Field) → Decidable (first = second)
  | .primitive first notes, .primitive second others =>
      decidable_of_iff (first = second ∧ notes = others) (by simp)
  | .anyArray notes, .anyArray others => decidable_of_iff (notes = others) (by simp)
  | .array first notes, .array second others =>
      match decEq first second with
      | isTrue same => decidable_of_iff (notes = others) (by simp [same])
      | isFalse different => isFalse (by simp [different])
  | .object first required notes, .object second others otherNotes =>
      match decEqFields first second with
      | isTrue same => decidable_of_iff (required = others ∧ notes = otherNotes) (by simp [same])
      | isFalse different => isFalse (by simp [different])
  | .reference first notes, .reference second others =>
      decidable_of_iff (first = second ∧ notes = others) (by simp)
  | .primitive .., .anyArray .. => isFalse (by simp)
  | .primitive .., .array .. => isFalse (by simp)
  | .primitive .., .object .. => isFalse (by simp)
  | .primitive .., .reference .. => isFalse (by simp)
  | .anyArray .., .primitive .. => isFalse (by simp)
  | .anyArray .., .array .. => isFalse (by simp)
  | .anyArray .., .object .. => isFalse (by simp)
  | .anyArray .., .reference .. => isFalse (by simp)
  | .array .., .primitive .. => isFalse (by simp)
  | .array .., .anyArray .. => isFalse (by simp)
  | .array .., .object .. => isFalse (by simp)
  | .array .., .reference .. => isFalse (by simp)
  | .object .., .primitive .. => isFalse (by simp)
  | .object .., .anyArray .. => isFalse (by simp)
  | .object .., .array .. => isFalse (by simp)
  | .object .., .reference .. => isFalse (by simp)
  | .reference .., .primitive .. => isFalse (by simp)
  | .reference .., .anyArray .. => isFalse (by simp)
  | .reference .., .array .. => isFalse (by simp)
  | .reference .., .object .. => isFalse (by simp)

/-- Equality of lists of named fields is decidable. -/
def decEqFields : (first second : List (String × Field)) → Decidable (first = second)
  | [], [] => isTrue rfl
  | (firstName, first) :: firsts, (secondName, second) :: seconds =>
      if sameName : firstName = secondName then
        match decEq first second, decEqFields firsts seconds with
        | isTrue same, isTrue sameRest => isTrue (by rw [sameName, same, sameRest])
        | isFalse different, _ => isFalse (by simp [different])
        | _, isFalse different => isFalse (by simp [different])
      else
        isFalse (by simp [sameName])
  | [], _ :: _ => isFalse (by simp)
  | _ :: _, [] => isFalse (by simp)

end

instance : DecidableEq Field := decEq

/-- What a field says beyond its type. -/
def notes : Field → Notes
  | primitive _ notes => notes
  | anyArray notes => notes
  | array _ notes => notes
  | object _ _ notes => notes
  | reference _ notes => notes

/-- The name of the type of a field; a reference has the name of its key. -/
def typeName : Field → String
  | primitive type _ => type.name
  | anyArray _ => "array"
  | array _ _ => "array"
  | object _ _ _ => "object"
  | reference _ _ => "$ref"

end Field

/-- The type of a parameter: one of the types of values, or a named schema. -/
inductive ParameterType where
  | value (type : JsonType)
  | reference (schema : String)
  deriving DecidableEq, Repr

/-- A query or path parameter. -/
structure Parameter where
  type : ParameterType := .value (.primitive .string)
  notes : Notes := {}
  required : Bool := false
  deriving DecidableEq, Repr

/-- A request body, described by a named schema. -/
structure Body where
  schema : String
  description : Option String := none
  contentType : String := "application/json"
  required : Bool := true
  deriving DecidableEq, Repr

/-- An operation: a method on a path. -/
structure Endpoint where
  path : String
  method : Method
  summary : String := ""
  description : Option String := none
  tags : List String := []
  deprecated : Bool := false
  body : Option Body := none
  query : Entries String Parameter := []
  pathParameters : Entries String Parameter := []
  deriving DecidableEq, Repr

/-- The method and the path of an endpoint, as messages show it. -/
def Endpoint.label (endpoint : Endpoint) : String :=
  s!"{endpoint.method.name} {endpoint.path}"

/-- A named type definition. -/
structure Schema where
  name : String
  type : JsonType := .object
  title : Option String := none
  description : Option String := none
  format : Option String := none
  sample : Option Value := none
  choices : Option (List Value) := none
  required : List String := []
  fields : Entries String Field := []
  items : Option Field := none
  deriving DecidableEq, Repr

/-- The marker at the front of a matcher that asks for a recent timestamp. -/
def spanMark : String := "$span:"

/-- A matcher with the label it stands for. -/
structure Rule where
  matcher : String
  label : String
  deriving DecidableEq, Repr

/-- Whether a rule asks for a recent timestamp. -/
def Rule.isSpan (rule : Rule) : Bool :=
  spanMark.toList.isPrefixOf rule.matcher.toList

/-- The translation rules of a field of a model, in order. -/
structure Translation where
  model : String
  field : String
  rules : List Rule := []
  deriving DecidableEq, Repr

/-- What one definition file says. -/
structure Definition where
  source : String
  name : Option String := none
  version : Option String := none
  description : Option String := none
  endpoints : List Endpoint := []
  schemas : Entries String Schema := []
  translations : List Translation := []
  deriving DecidableEq, Repr

/-- A group of endpoints, one for each named definition file. -/
structure Tag where
  name : String
  description : String
  deriving DecidableEq, Repr

/-- What all definition files of a project say together. -/
structure Api where
  title : LooseText
  version : LooseText
  description : String
  tags : List Tag
  endpoints : List Endpoint
  schemas : Entries String Schema
  translations : List Translation
  deriving DecidableEq, Repr

end ApiWorkshop
