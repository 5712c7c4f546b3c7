import ApiWorkshop.Proofs.Api.KeptDeclarations

/-!
# Array schemas that declare fields

The fields of an array schema move onto its items.  The items become an object
with these fields as properties, and it requires the names that the schema
requires.  What an object that is declared as the items requires by itself is left
out, also where it names one of the fields.
-/

namespace ApiWorkshop

/-- A field that is an object with a property under a name and requires it. -/
def Field.Requires (field : Field) (name : String) : Prop :=
  ∃ properties required notes, field = .object properties required notes ∧
    name ∈ required ∧ name ∈ properties.map Prod.fst

/-- An array schema whose declared fields have moved onto its items, with the names
that the schema requires and the notes of the items that it declares. -/
structure Schema.Folded (declared folded : Schema) : Prop where
  type : folded.type = .array
  fields : folded.fields = []
  required : folded.required = []
  items : ∃ properties notes,
    folded.items = some (.object properties declared.required notes) ∧
      FieldsKept declared.fields properties ∧
      ((declared.items.map Field.notes).getD {}).Kept notes

namespace Normalize

/-- Completing an array schema with fields moves them when its items are a bare
object. -/
theorem folded_completeSchema {schema : Schema} (isArray : schema.type = .array)
    (hasFields : schema.fields ≠ [])
    (bare : ∀ item ∈ schema.items, ∃ required notes, item = .object [] required notes) :
    schema.Folded (completeSchema schema) := by
  have completed : completeSchema schema =
      { schema with
        description := some (schema.description.getD "")
        fields := []
        required := []
        items := some (completeField (Check.foldedItem schema)) } := by
    simp [completeSchema, isArray, hasFields, Check.foldItem_of_bare bare]
  rw [completed]
  exact ⟨isArray, rfl, rfl, _, _, rfl, kept_completeFields schema.fields, kept_completeNotes _⟩

end Normalize

theorem FieldsKept.map_fst_eq : ∀ {fields others : List (String × Field)},
    FieldsKept fields others → others.map Prod.fst = fields.map Prod.fst
  | _, _, .nil => rfl
  | _, _, .cons name _ rest => congrArg (name :: ·) rest.map_fst_eq

/-- The items of a folded schema require what the schema requires. -/
theorem Schema.Folded.requires_iff {declared folded : Schema} (isFolded : declared.Folded folded)
    (areFields : ∀ name ∈ declared.required, name ∈ Entries.keys declared.fields) (name : String) :
    (∃ item ∈ folded.items, item.Requires name) ↔ name ∈ declared.required := by
  obtain ⟨properties, notes, isItem, kept, -⟩ := isFolded.items
  rw [isItem]
  constructor
  · rintro ⟨_, ⟨⟩, others, required, otherNotes, same, isRequired, -⟩
    obtain ⟨-, rfl, -⟩ := Field.object.inj same
    exact isRequired
  · intro isRequired
    exact ⟨_, rfl, properties, _, notes, rfl, isRequired,
      kept.map_fst_eq ▸ areFields name isRequired⟩

/-- An array schema that declares fields is accepted with bare items only, and then
its items require the names that the schema requires, each of them a property.  A
name that the declared items require is kept exactly if the schema requires it too. -/
theorem folded_requires_iff_of_normalize {heading : Heading} {definitions : List Definition}
    {api : Api} (isApi : normalize heading definitions = .ok api) {entry : String × Schema}
    (isDeclared : entry ∈ definitions.flatMap Definition.schemas)
    (isArray : entry.2.type = .array) (hasFields : entry.2.fields ≠ []) :
    (∀ item ∈ entry.2.items, ∃ required notes, item = .object [] required notes) ∧
      ∃ folded, Entries.get? entry.1 api.schemas = some folded ∧ entry.2.Folded folded ∧
        ∀ name, (∃ item ∈ folded.items, item.Requires name) ↔ name ∈ entry.2.required := by
  obtain ⟨passed, -⟩ := Api.normalize_eq_ok_iff_passed.mp isApi
  obtain ⟨definition, isDefinition, isEntry⟩ := List.mem_flatMap.mp isDeclared
  have noProblem := passed.schemas definition isDefinition entry isEntry ""
  rw [Check.checkSchema, isArray] at noProblem
  obtain ⟨bare, -, areFields, -⟩ :=
    (Check.checkArraySchema_eq_nil_iff_of_fields hasFields).mp
      (List.append_eq_nil_iff.mp noProblem).2
  have isFolded := Normalize.folded_completeSchema isArray hasFields bare
  have isSchema : (entry.1, Normalize.completeSchema entry.2) ∈ api.schemas := by
    rw [Api.schemas_of_normalize isApi]
    exact List.mem_map_of_mem isDeclared
  exact ⟨bare, _, Entries.get?_of_mem (Api.nodup_schemas_of_normalize isApi) isSchema, isFolded,
    isFolded.requires_iff areFields⟩

/-- A file with an array schema that declares a field, which only the items require. -/
def looseFile : SourceText :=
  ⟨"s.toml", Text.ofLines ["[schemas.s]", "type = \"array\"", "x = \"string\"",
    "items = \x7b type = \"object\", required = [\"x\"] \x7d"]⟩

/-- A file with an array schema that declares a field and requires it. -/
def strictFile : SourceText :=
  ⟨"s.toml", Text.ofLines ["[schemas.s]", "type = \"array\"", "required = [\"x\"]",
    "x = \"string\"", "items = \x7b type = \"object\" \x7d"]⟩

/-- A required field is required of the items. -/
theorem folded_requires_iff_of_strictFile :
    ∃ definitions api folded, Definition.readAll [strictFile] = .ok definitions ∧
      normalize {} definitions = .ok api ∧ Entries.get? "s" api.schemas = some folded ∧
      ∃ item ∈ folded.items, item.Requires "x" := by
  have evaluated : ((Definition.readAll [strictFile]).toOption.any fun definitions =>
      (normalize {} definitions).toOption.any fun _ =>
        (definitions.flatMap Definition.schemas).any fun entry =>
          decide (entry.1 = "s" ∧ entry.2.type = .array ∧ entry.2.fields ≠ [] ∧
            "x" ∈ entry.2.required)) = true := by decide +kernel
  obtain ⟨definitions, areRead, evaluated⟩ := exists_of_any_toOption evaluated
  obtain ⟨api, isApi, evaluated⟩ := exists_of_any_toOption evaluated
  obtain ⟨⟨name, schema⟩, isDeclared, evaluated⟩ := List.any_eq_true.mp evaluated
  obtain ⟨rfl, isArray, hasFields, isRequired⟩ := of_decide_eq_true evaluated
  obtain ⟨-, folded, isFound, -, requires⟩ :=
    folded_requires_iff_of_normalize isApi isDeclared isArray hasFields
  exact ⟨definitions, api, folded, areRead, isApi, isFound, (requires "x").mpr isRequired⟩

/-- A field that only the declared items require is not required any more. -/
theorem folded_drops_required :
    ∃ definitions api, Definition.readAll [looseFile] = .ok definitions ∧
      normalize {} definitions = .ok api ∧
      (∃ schema, ("s", schema) ∈ definitions.flatMap Definition.schemas ∧
        schema.type = .array ∧ Entries.keys schema.fields = ["x"] ∧
        schema.items = some (.object [] ["x"] {})) ∧
      ∃ folded, Entries.get? "s" api.schemas = some folded ∧
        ∀ item ∈ folded.items, ¬ item.Requires "x" := by
  have evaluated : ((Definition.readAll [looseFile]).toOption.any fun definitions =>
      (normalize {} definitions).toOption.any fun api =>
        ((definitions.flatMap Definition.schemas).any fun entry =>
          decide (entry.1 = "s" ∧ entry.2.type = .array ∧ Entries.keys entry.2.fields = ["x"] ∧
            entry.2.items = some (.object [] ["x"] {}))) &&
        (Entries.get? "s" api.schemas).any fun folded =>
          folded.items = some (.object [("x", .primitive .string { description := some "" })] []
            { description := some "" })) = true := by decide +kernel
  obtain ⟨definitions, areRead, evaluated⟩ := exists_of_any_toOption evaluated
  obtain ⟨api, isApi, evaluated⟩ := exists_of_any_toOption evaluated
  obtain ⟨isSchema, isFolded⟩ := Bool.and_eq_true_iff.mp evaluated
  obtain ⟨⟨name, schema⟩, isDeclared, isSchema⟩ := List.any_eq_true.mp isSchema
  obtain ⟨rfl, facts⟩ := of_decide_eq_true isSchema
  obtain ⟨folded, isFound, isItem⟩ := (Option.any_eq_true _ _).mp isFolded
  refine ⟨definitions, api, areRead, isApi, ⟨schema, isDeclared, facts⟩, folded, isFound, ?_⟩
  simp only [decide_eq_true_eq] at isItem
  rw [isItem]
  rintro _ ⟨⟩ ⟨properties, required, notes, same, isRequired, -⟩
  obtain ⟨-, rfl, -⟩ := Field.object.inj same
  exact List.not_mem_nil isRequired

end ApiWorkshop
