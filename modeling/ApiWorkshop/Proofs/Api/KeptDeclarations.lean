import ApiWorkshop.Proofs.Api.Gathered
import Mathlib.Data.List.Forall2

/-!
# Declarations are kept

Normalizing rebuilds every endpoint, parameter, schema and field.  What comes out
says the same as the declaration: a description that is missing becomes empty, the
placeholders of a path get parameters that are required, and all else is as it was
declared, in order and at every depth.  Only an array schema that declares fields
is given another shape.
-/

namespace ApiWorkshop

/-- Notes that differ from the declared ones in a missing description only, which
is empty. -/
structure Notes.Kept (declared kept : Notes) : Prop where
  format : kept.format = declared.format
  description : kept.description = some (declared.description.getD "")
  sample : kept.sample = declared.sample
  choices : kept.choices = declared.choices
  fallback : kept.fallback = declared.fallback

mutual

/-- A field of the same shape as the declared one, with the notes, the names and the
required names of each field inside it kept. -/
inductive Field.Kept : (declared kept : Field) → Prop
  | primitive (type : Primitive) {notes others : Notes} (sameNotes : notes.Kept others) :
      Field.Kept (.primitive type notes) (.primitive type others)
  | anyArray {notes others : Notes} (sameNotes : notes.Kept others) :
      Field.Kept (.anyArray notes) (.anyArray others)
  | array {item other : Field} {notes others : Notes} (sameItem : Field.Kept item other)
      (sameNotes : notes.Kept others) : Field.Kept (.array item notes) (.array other others)
  | object {properties rebuilt : List (String × Field)} {notes others : Notes}
      (required : List String) (sameProperties : FieldsKept properties rebuilt)
      (sameNotes : notes.Kept others) :
      Field.Kept (.object properties required notes) (.object rebuilt required others)
  | reference (schema : String) {notes others : Notes} (sameNotes : notes.Kept others) :
      Field.Kept (.reference schema notes) (.reference schema others)

/-- Named fields that are kept, with the same names in the same order. -/
inductive FieldsKept : (declared kept : List (String × Field)) → Prop
  | nil : FieldsKept [] []
  | cons (name : String) {field other : Field} {fields others : List (String × Field)}
      (same : Field.Kept field other) (rest : FieldsKept fields others) :
      FieldsKept ((name, field) :: fields) ((name, other) :: others)

end

structure Parameter.Kept (declared kept : Parameter) : Prop where
  type : kept.type = declared.type
  notes : declared.notes.Kept kept.notes
  required : kept.required = declared.required

structure Body.Kept (declared kept : Body) : Prop where
  schema : kept.schema = declared.schema
  description : kept.description = some (declared.description.getD "")
  contentType : kept.contentType = declared.contentType
  required : kept.required = declared.required

/-- The parameter of a placeholder: the one that is declared for it, made required,
or a required string. -/
inductive PlaceholderKept (declared : Entries String Parameter) (name : String) :
    Parameter → Prop
  | declared {parameter kept : Parameter} (isDeclared : (name, parameter) ∈ declared)
      (same : Parameter.Kept { parameter with required := true } kept) :
      PlaceholderKept declared name kept
  | undeclared (notDeclared : name ∉ Entries.keys declared) :
      PlaceholderKept declared name
        { type := .value (.primitive .string), notes := { description := some "" },
          required := true }

/-- An endpoint that says what its declaration says. -/
structure Endpoint.Kept (declared kept : Endpoint) : Prop where
  path : kept.path = declared.path
  method : kept.method = declared.method
  summary : kept.summary = declared.summary
  description : kept.description = some (declared.description.getD "")
  tags : kept.tags = declared.tags
  deprecated : kept.deprecated = declared.deprecated
  body : Option.Rel Body.Kept declared.body kept.body
  query : List.Forall₂ (fun parameter other =>
    other.1 = parameter.1 ∧ parameter.2.Kept other.2) declared.query kept.query
  /-- The path parameters are the placeholders of the path in order, each once. -/
  names : Entries.keys kept.pathParameters = placeholders declared.path
  distinct : (placeholders declared.path).Nodup
  /-- No parameter is declared for anything else. -/
  declaredNames : Entries.keys declared.pathParameters ⊆ placeholders declared.path
  pathParameters : ∀ entry ∈ kept.pathParameters,
    PlaceholderKept declared.pathParameters entry.1 entry.2

/-- A schema that says what its declaration says. -/
structure Schema.Kept (declared kept : Schema) : Prop where
  name : kept.name = declared.name
  type : kept.type = declared.type
  title : kept.title = declared.title
  description : kept.description = some (declared.description.getD "")
  format : kept.format = declared.format
  sample : kept.sample = declared.sample
  choices : kept.choices = declared.choices
  required : kept.required = declared.required
  fields : FieldsKept declared.fields kept.fields
  items : Option.Rel Field.Kept declared.items kept.items

namespace Normalize

/-! ## What each completion keeps -/

theorem kept_completeNotes (notes : Notes) : notes.Kept (completeNotes notes) :=
  ⟨rfl, rfl, rfl, rfl, rfl⟩

mutual

/-- Completing a field keeps it, by induction on its syntax. -/
theorem kept_completeField : ∀ field : Field, field.Kept (completeField field)
  | .primitive type notes => .primitive type (kept_completeNotes notes)
  | .anyArray notes => .anyArray (kept_completeNotes notes)
  | .array item notes => .array (kept_completeField item) (kept_completeNotes notes)
  | .object properties required notes =>
      .object required (kept_completeFields properties) (kept_completeNotes notes)
  | .reference schema notes => .reference schema (kept_completeNotes notes)

theorem kept_completeFields :
    ∀ fields : List (String × Field), FieldsKept fields (completeFields fields)
  | [] => .nil
  | (name, field) :: fields => .cons name (kept_completeField field) (kept_completeFields fields)

end

theorem kept_completeParameter (parameter : Parameter) :
    parameter.Kept (completeParameter parameter) :=
  ⟨rfl, kept_completeNotes parameter.notes, rfl⟩

theorem kept_placeholderParameter (declared : Entries String Parameter) (name : String) :
    PlaceholderKept declared name (placeholderParameter declared name) := by
  rw [placeholderParameter]
  split
  next parameter isDeclared =>
    exact .declared (Entries.mem_of_get? isDeclared)
      ⟨rfl, kept_completeNotes parameter.notes, rfl⟩
  next notDeclared =>
    refine .undeclared fun isName => ?_
    simpa [notDeclared] using Entries.isSome_get?_of_mem_keys isName

/-- Completing an endpoint keeps it when its placeholders are distinct and have all
parameters that are declared for the path. -/
theorem kept_completeEndpoint {endpoint : Endpoint}
    (distinct : (placeholders endpoint.path).Nodup)
    (declaredNames : Entries.keys endpoint.pathParameters ⊆ placeholders endpoint.path) :
    endpoint.Kept (completeEndpoint endpoint) where
  path := rfl
  method := rfl
  summary := rfl
  description := rfl
  tags := rfl
  deprecated := rfl
  body := by
    rw [completeEndpoint]
    cases endpoint.body with
    | none => exact .none
    | some body => exact .some ⟨rfl, rfl, rfl, rfl⟩
  query := List.forall₂_map_right_iff.mpr <| List.forall₂_same.mpr fun entry _ =>
    ⟨rfl, kept_completeParameter entry.2⟩
  names := by
    rw [keys_pathParameters_completeEndpoint, Entries.eraseDups_of_nodup distinct]
  distinct := distinct
  declaredNames := declaredNames
  pathParameters := List.forall_mem_map.mpr fun name _ =>
    kept_placeholderParameter endpoint.pathParameters name

theorem kept_map_completeField (items : Option Field) :
    Option.Rel Field.Kept items (items.map completeField) := by
  cases items with
  | none => exact .none
  | some item => exact .some (kept_completeField item)

/-- Completing a schema without problems keeps it, unless it is an array schema with
fields. -/
theorem kept_completeSchema {known : List String} {source : String} {schema : Schema}
    (regular : schema.Regular) (noProblem : Check.checkSchema known source schema = [])
    (notFolded : schema.type ≠ .array ∨ schema.fields = []) :
    schema.Kept (completeSchema schema) := by
  have faultless := (Check.checkSchema_eq_nil_iff regular.isArray).mp noProblem
  have noItems (notArray : schema.type ≠ .array) : schema.items = none :=
    Decidable.not_not.mp (mt regular.isArray notArray)
  cases isType : schema.type with
  | object =>
      have notArray : schema.type ≠ .array := by simp [isType]
      have completed : completeSchema schema =
          { schema with
            description := some (schema.description.getD "")
            fields := completeFields schema.fields } := by
        rw [completeSchema, isType]
      rw [completed]
      refine ⟨rfl, rfl, rfl, rfl, rfl, rfl, rfl, rfl, kept_completeFields schema.fields, ?_⟩
      rw [noItems notArray]
      exact .none
  | primitive type =>
      have notArray : schema.type ≠ .array := by simp [isType]
      obtain ⟨noFields, noRequired⟩ := faultless.neither (by simp [isType]) notArray
      have completed : completeSchema schema =
          { schema with description := some (schema.description.getD "") } := by
        simp [completeSchema, isType, ← noFields, ← noRequired]
      rw [completed]
      refine ⟨rfl, rfl, rfl, rfl, rfl, rfl, rfl, rfl, ?_, ?_⟩
      · rw [noFields]
        exact .nil
      · rw [noItems notArray]
        exact .none
  | array =>
      have noFields := notFolded.resolve_left (not_not.mpr isType)
      have noRequired := faultless.arrayWithoutFields isType noFields
      have completed : completeSchema schema =
          { schema with
            description := some (schema.description.getD "")
            items := schema.items.map completeField } := by
        simp [completeSchema, isType, noFields, ← noRequired]
      rw [completed]
      refine ⟨rfl, rfl, rfl, rfl, rfl, rfl, rfl, rfl, ?_, kept_map_completeField schema.items⟩
      rw [noFields]
      exact .nil

end Normalize

/-- What normalizing makes of definitions that were read are their declarations, kept
in order; only an array schema that declares fields need not be. -/
theorem declarations_kept_of_normalize {files : List SourceText} {heading : Heading}
    {definitions : List Definition} {api : Api}
    (areRead : Definition.readAll files = .ok definitions)
    (isApi : normalize heading definitions = .ok api) :
    List.Forall₂ Endpoint.Kept (definitions.flatMap Definition.endpoints) api.endpoints ∧
      List.Forall₂ (fun declared kept => kept.1 = declared.1 ∧
          (declared.2.type ≠ .array ∨ declared.2.fields = [] → declared.2.Kept kept.2))
        (definitions.flatMap Definition.schemas) api.schemas := by
  obtain ⟨passed, -⟩ := Api.normalize_eq_ok_iff_passed.mp isApi
  have areRegular := Definition.regular_of_readAll areRead
  rw [Api.endpoints_of_normalize isApi, Api.schemas_of_normalize isApi]
  constructor
  · refine List.forall₂_map_right_iff.mpr (List.forall₂_same.mpr fun endpoint isDeclared => ?_)
    obtain ⟨distinct, declaredNames⟩ := placeholders_of_passed passed endpoint isDeclared
    exact Normalize.kept_completeEndpoint distinct declaredNames
  · refine List.forall₂_map_right_iff.mpr (List.forall₂_same.mpr fun entry isDeclared => ?_)
    obtain ⟨definition, isDefinition, isEntry⟩ := List.mem_flatMap.mp isDeclared
    have isRegular := (areRegular definition isDefinition).schemas entry isEntry
    exact ⟨rfl, Normalize.kept_completeSchema isRegular
      (passed.schemas definition isDefinition entry isEntry "")⟩

/-- A file with a parameter that is declared for one of two placeholders, and a schema with
objects inside the items of an array. -/
def nestedFile : SourceText :=
  ⟨"order.toml", Text.ofLines [
    "[[endpoints]]", "path = \"/order/\x7bid\x7d/\x7bpart\x7d\"", "method = \"PUT\"",
    "body = \"order\"", "query = \x7b deep = \"boolean\" \x7d",
    "path_params.id = \x7b type = \"integer\", required = false \x7d",
    "[schemas.order]", "required = [\"lines\"]",
    "[schemas.order.lines]", "type = \"array\"", "items.type = \"object\"",
    "items.required = [\"next\"]", "items.properties.next.schema = \"line\"",
    "[schemas.line]", "type = \"array\"", "items = \"integer\""]⟩

/-- The declarations of a nested file are kept, with parameters for both placeholders. -/
theorem declarations_kept_of_nestedFile :
    ∃ definitions api, Definition.readAll [nestedFile] = .ok definitions ∧
      normalize {} definitions = .ok api ∧
      api.endpoints.map (fun endpoint => endpoint.pathParameters.map fun entry =>
        (entry.1, entry.2.type, entry.2.required)) =
        [[("id", .value (.primitive .integer), true),
          ("part", .value (.primitive .string), true)]] ∧
      List.Forall₂ Endpoint.Kept (definitions.flatMap Definition.endpoints) api.endpoints ∧
      List.Forall₂ (fun declared kept => kept.1 = declared.1 ∧
          (declared.2.type ≠ .array ∨ declared.2.fields = [] → declared.2.Kept kept.2))
        (definitions.flatMap Definition.schemas) api.schemas := by
  have evaluated : ((Definition.readAll [nestedFile]).toOption.any fun definitions =>
      (normalize {} definitions).toOption.any fun api =>
        decide (api.endpoints.map (fun endpoint => endpoint.pathParameters.map fun entry =>
          (entry.1, entry.2.type, entry.2.required)) =
          [[("id", .value (.primitive .integer), true),
            ("part", .value (.primitive .string), true)]])) = true := by decide +kernel
  obtain ⟨definitions, areRead, evaluated⟩ := exists_of_any_toOption evaluated
  obtain ⟨api, isApi, evaluated⟩ := exists_of_any_toOption evaluated
  exact ⟨definitions, api, areRead, isApi, of_decide_eq_true evaluated,
    declarations_kept_of_normalize areRead isApi⟩

end ApiWorkshop
