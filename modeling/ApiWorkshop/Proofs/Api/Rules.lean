import ApiWorkshop.Proofs.Api.Spans

/-!
# The rules of definitions

What definitions have to obey, said without the checks.  The rules speak of
every field inside a schema, at any depth, and of the declarations of all files
together.
-/

namespace ApiWorkshop

/-! ## Rules -/

namespace Field

/-- The fields that a field is made of: the item of an array and the properties of
an object. -/
def parts : Field → List Field
  | .array item _ => [item]
  | .object properties _ _ => properties.map Prod.snd
  | _ => []

/-- A field is another one or stands in it, at any depth. -/
inductive Inside (inner : Field) : Field → Prop
  | self : Inside inner inner
  | part {outer part : Field} (isPart : part ∈ outer.parts) (inside : Inside inner part) :
      Inside inner outer

/-- What an object requires is among its properties. -/
def RequiresDeclared (field : Field) : Prop :=
  ∀ properties required notes, field = .object properties required notes →
    ∀ name ∈ required, name ∈ properties.map Prod.fst

/-- What a field refers to is an allowed schema. -/
def RefersTo (allowed : String → Prop) (field : Field) : Prop :=
  ∀ schema notes, field = .reference schema notes → allowed schema

end Field

/-- There are no choices or some, and the fallback is one of them, and so is the
sample unless it is an array. -/
structure ChoicesFit (choices : Option (List Value)) (fallback sample : Option Value) : Prop where
  nonempty : choices ≠ some []
  fallback : ∀ members ∈ choices, ∀ value ∈ fallback, value.isMember members = true
  sample : ∀ members ∈ choices, ∀ value ∈ sample, Check.isArray value = false →
    value.isMember members = true

def Notes.Fit (notes : Notes) : Prop :=
  ChoicesFit notes.choices notes.fallback notes.sample

/-- A field stands somewhere in a schema. -/
def Schema.Holds (schema : Schema) (field : Field) : Prop :=
  (∃ entry ∈ schema.fields, field.Inside entry.2) ∨ ∃ item ∈ schema.items, field.Inside item

/-- A schema that breaks no rule.  The items of an array schema that declares
fields are an object without properties, whose own list of required properties
does not count. -/
structure Schema.Faultless (known : List String) (schema : Schema) : Prop where
  choices : ChoicesFit schema.choices none schema.sample
  fieldChoices : ∀ field, schema.Holds field → field.notes.Fit
  references : ∀ field, schema.Holds field →
    field.RefersTo fun target => target ∈ known ∧ target ≠ schema.name
  required : schema.type = .object ∨ schema.type = .array ∧ schema.fields ≠ [] →
    ∀ name ∈ schema.required, name ∈ Entries.keys schema.fields
  fieldsRequire : ∀ entry ∈ schema.fields, ∀ field : Field, field.Inside entry.2 →
    field.RequiresDeclared
  itemRequires : schema.fields = [] → ∀ item ∈ schema.items, item.RequiresDeclared
  partsRequire : ∀ item ∈ schema.items, ∀ part ∈ item.parts, ∀ field : Field,
    field.Inside part → field.RequiresDeclared
  arrayWithoutFields : schema.type = .array → schema.fields = [] → schema.required = []
  arrayWithFields : schema.type = .array → schema.fields ≠ [] → ∀ item ∈ schema.items,
    ∃ required notes, item = .object [] required notes
  neither : schema.type ≠ .object → schema.type ≠ .array →
    schema.fields = [] ∧ schema.required = []

/-- A parameter that breaks no rule. -/
structure Parameter.Faultless (known : List String) (parameter : Parameter) : Prop where
  choices : parameter.notes.Fit
  schema : ∀ schema, parameter.type = .reference schema → schema ∈ known

/-- An endpoint that breaks no rule. -/
structure Endpoint.Faultless (known : List String) (endpoint : Endpoint) : Prop where
  body : ∀ body ∈ endpoint.body, body.schema ∈ known
  query : ∀ entry ∈ endpoint.query, entry.2.Faultless known
  pathParameters : ∀ entry ∈ endpoint.pathParameters, entry.2.Faultless known
  distinct : (placeholders endpoint.path).Nodup
  declared : ∀ name ∈ Entries.keys endpoint.pathParameters, name ∈ placeholders endpoint.path

/-- Definitions that break no rule. -/
structure Faultless (definitions : List Definition) : Prop where
  schemaNames : (Check.schemaNames definitions).Nodup
  operations : (definitions.flatMap fun definition => definition.endpoints.map fun endpoint =>
    (endpoint.method, endpoint.path)).Nodup
  tables : (definitions.flatMap fun definition => definition.translations.map fun translation =>
    (translation.model, translation.field)).Nodup
  schemas : ∀ definition ∈ definitions, ∀ entry ∈ definition.schemas,
    entry.2.Faultless (Check.schemaNames definitions)
  endpoints : ∀ definition ∈ definitions, ∀ endpoint ∈ definition.endpoints,
    endpoint.Faultless (Check.schemaNames definitions)
  durations : ∀ definition ∈ definitions, ∀ translation ∈ definition.translations,
    ∀ rule ∈ translation.rules, rule.durationFault? = none

/-! ## Fields inside a field -/

namespace Field

variable {allowed : String → Prop}

theorem inside_iff {inner outer : Field} :
    inner.Inside outer ↔ inner = outer ∨ ∃ part ∈ outer.parts, inner.Inside part := by
  constructor
  · intro inside
    cases inside with
    | self => exact .inl rfl
    | part isPart inside => exact .inr ⟨_, isPart, inside⟩
  · rintro (rfl | ⟨part, isPart, inside⟩)
    · exact .self
    · exact .part isPart inside

/-- What holds of all fields inside a field holds of it and of all fields inside its
parts. -/
theorem forall_inside_iff {rule : Field → Prop} {outer : Field} :
    (∀ inner : Field, inner.Inside outer → rule inner) ↔
      rule outer ∧ ∀ part ∈ outer.parts, ∀ inner : Field, inner.Inside part → rule inner := by
  constructor
  · exact fun holds => ⟨holds outer .self, fun part isPart inner inside =>
      holds inner (.part isPart inside)⟩
  · rintro ⟨self, parts⟩ inner inside
    rcases inside_iff.mp inside with rfl | ⟨part, isPart, inPart⟩
    · exact self
    · exact parts part isPart inner inPart

theorem forall_inside_leaf_iff {rule : Field → Prop} {leaf : Field} (noParts : leaf.parts = []) :
    (∀ inner : Field, inner.Inside leaf → rule inner) ↔ rule leaf := by
  rw [forall_inside_iff, noParts]
  simp

theorem forall_inside_array_iff {rule : Field → Prop} {item : Field} {notes : Notes} :
    (∀ inner : Field, inner.Inside (.array item notes) → rule inner) ↔
      rule (.array item notes) ∧ ∀ inner : Field, inner.Inside item → rule inner := by
  rw [forall_inside_iff, parts, List.forall_mem_singleton]

theorem forall_inside_object_iff {rule : Field → Prop} {properties : List (String × Field)}
    {required : List String} {notes : Notes} :
    (∀ inner : Field, inner.Inside (.object properties required notes) → rule inner) ↔
      rule (.object properties required notes) ∧
        ∀ property ∈ properties, ∀ inner : Field, inner.Inside property.2 → rule inner := by
  rw [forall_inside_iff, parts, List.forall_mem_map]

/-- A field that breaks no rule, its parts apart. -/
structure Obeys (allowed : String → Prop) (field : Field) : Prop where
  choices : field.notes.Fit
  refers : field.RefersTo allowed
  requires : field.RequiresDeclared

theorem obeys_array_iff {item : Field} {notes : Notes} :
    (Field.array item notes).Obeys allowed ↔ notes.Fit :=
  ⟨Obeys.choices, fun fit => ⟨fit, nofun, nofun⟩⟩

theorem obeys_object_iff {properties : List (String × Field)} {required : List String}
    {notes : Notes} : (Field.object properties required notes).Obeys allowed ↔
      notes.Fit ∧ ∀ name ∈ required, name ∈ properties.map Prod.fst := by
  constructor
  · exact fun obeys => ⟨obeys.choices, obeys.requires _ _ _ rfl⟩
  · rintro ⟨fit, declared⟩
    refine ⟨fit, nofun, ?_⟩
    rintro _ _ _ ⟨⟩
    exact declared

theorem obeys_reference_iff {schema : String} {notes : Notes} :
    (Field.reference schema notes).Obeys allowed ↔ notes.Fit ∧ allowed schema := by
  constructor
  · exact fun obeys => ⟨obeys.choices, obeys.refers _ _ rfl⟩
  · rintro ⟨fit, isAllowed⟩
    refine ⟨fit, ?_, nofun⟩
    rintro _ _ ⟨⟩
    exact isAllowed

end Field

end ApiWorkshop
