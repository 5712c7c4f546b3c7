import ApiWorkshop.OpenApi.Document
import ApiWorkshop.Proofs.Api.Closed

/-!
# The schemas of a document

A schema of a document is plain data, so what stands inside it is found by its
keys alone: its items and its properties, at any depth.  The data made from a
closed field or schema refers to allowed schemas only and requires only
properties that it has, wherever one looks inside it.
-/

namespace ApiWorkshop

/-- What a table has under a key. -/
def Value.under? (key : String) : Value → Option Value
  | .table entries => Entries.get? key entries
  | _ => none

namespace OpenApi

/-- What stands inside a schema: itself and, at any depth, its items and its
properties. -/
inductive Inside : Value → Value → Prop
  | self (schema : Value) : Inside schema schema
  | items {schema items found : Value} (areItems : schema.under? "items" = some items)
      (inside : Inside items found) : Inside schema found
  | property {schema found : Value} {properties : Entries String Value}
      {property : String × Value}
      (areProperties : schema.under? "properties" = some (.table properties))
      (isProperty : property ∈ properties) (inside : Inside property.2 found) :
      Inside schema found

/-- The text that refers to a component schema. -/
def referenceTo (schema : String) : Value :=
  .string ("#/components/schemas/" ++ schema)

/-- A schema that, without a look inside it, refers to an allowed schema if it
refers to one and requires only properties that it has. -/
structure SoundAt (allowed : String → Prop) (schema : Value) : Prop where
  reference : ∀ target, schema.under? "$ref" = some target →
    ∃ name, allowed name ∧ target = referenceTo name
  required : ∀ required, schema.under? "required" = some required →
    ∃ (names : List String) (properties : Entries String Value),
      required = .array (names.map Value.string) ∧
      schema.under? "properties" = some (.table properties) ∧
      ∀ name ∈ names, name ∈ Entries.keys properties

/-- A schema that is sound wherever one looks inside it. -/
def Sound (allowed : String → Prop) (schema : Value) : Prop :=
  ∀ found, Inside schema found → SoundAt allowed found

theorem Sound.imp {allowed weaker : String → Prop}
    (isWeaker : ∀ schema, allowed schema → weaker schema) {schema : Value}
    (sound : Sound allowed schema) : Sound weaker schema := by
  intro found inside
  refine ⟨fun target isTarget => ?_, (sound found inside).required⟩
  obtain ⟨name, isAllowed, same⟩ := (sound found inside).reference target isTarget
  exact ⟨name, isWeaker name isAllowed, same⟩

/-- The keys that give a schema its shape besides the type. -/
def shapeKeys : List String := ["$ref", "items", "properties", "required"]

/-- Entries that say nothing about the shape of a schema. -/
def Shapeless (entries : Entries String Value) : Prop :=
  ∀ key ∈ shapeKeys, Entries.get? key entries = none

theorem shapeless_nil : Shapeless [] := fun _ _ => rfl

theorem shapeless_cons {key : String} (noShape : key ∉ shapeKeys) (value : Value)
    {entries : Entries String Value} (rest : Shapeless entries) :
    Shapeless ((key, value) :: entries) := by
  intro other isShape
  have different : key ≠ other := by
    rintro rfl
    exact noShape isShape
  rw [Entries.get?, if_neg different]
  exact rest other isShape

theorem shapeless_append {first second : Entries String Value} (front : Shapeless first)
    (back : Shapeless second) : Shapeless (first ++ second) := by
  intro key isShape
  rw [Entries.get?_append, front key isShape, back key isShape]
  rfl

theorem shapeless_textEntry {key : String} (noShape : key ∉ shapeKeys) (text : Option String) :
    Shapeless (textEntry key text) := by
  cases text with
  | none => exact shapeless_nil
  | some text =>
      dsimp only [textEntry]
      split
      · exact shapeless_nil
      · exact shapeless_cons noShape _ shapeless_nil

theorem shapeless_annotations (choices : Option (List Value)) (fallback sample : Option Value) :
    Shapeless (annotations choices fallback sample) := by
  have optional {α : Type} {key : String} (noShape : key ∉ shapeKeys) (make : α → Value)
      (given : Option α) : Shapeless (given.toList.map fun found => (key, make found)) := by
    cases given with
    | none => exact shapeless_nil
    | some found => exact shapeless_cons noShape _ shapeless_nil
  exact shapeless_append (shapeless_append (optional (by decide) _ choices)
    (optional (by decide) id fallback)) (optional (by decide) id sample)

theorem shapeless_noteEntries (notes : Notes) : Shapeless (noteEntries notes) :=
  shapeless_append (shapeless_append (shapeless_textEntry (by decide) _)
    (shapeless_textEntry (by decide) _)) (shapeless_annotations _ _ _)

/-! ## The shapes of schemas -/

variable {allowed : String → Prop} {rest : Entries String Value}

theorem fieldValues_eq_map (fields : List (String × Field)) :
    fieldValues fields = fields.map fun field => (field.1, fieldValue field.2) := by
  induction fields with
  | nil => rfl
  | cons field fields ih => rw [fieldValues, ih, List.map_cons]

theorem keys_fieldValues (fields : List (String × Field)) :
    Entries.keys (fieldValues fields) = fields.map Prod.fst := by
  simp [fieldValues_eq_map, Entries.keys]

end OpenApi

end ApiWorkshop
