import ApiWorkshop.Proofs.Api.Rules

/-!
# What the checks of schemas find

Each check of a schema or of a part of it finds nothing exactly if a rule holds
there.  The check of an array schema that declares fields looks at the item that
they are moved onto, so the rule is put together from the fields and the item.
-/

namespace ApiWorkshop

namespace Check

variable {known : List String} {source location : String}

/-! ## What each check finds -/

theorem checkChoice_eq_nil_iff {choices : List Value} {kind : Value → ProblemKind}
    {value : Option Value} : checkChoice choices kind source location value = [] ↔
      ∀ found ∈ value, found.isMember choices = true := by
  cases value with
  | none => simp [checkChoice]
  | some value => simp [checkChoice]

theorem checkChoices_eq_nil_iff {choices : Option (List Value)} {fallback sample : Option Value} :
    checkChoices choices fallback sample source location = [] ↔
      ChoicesFit choices fallback sample := by
  match choices with
  | none =>
      refine iff_of_true rfl ⟨nofun, nofun, nofun⟩
  | some [] =>
      refine iff_of_false (List.cons_ne_nil _ _) fun fit => fit.nonempty rfl
  | some (choice :: choices) =>
      have checks : checkChoices (some (choice :: choices)) fallback sample source location =
          checkChoice (choice :: choices) .fallbackNotChoice source s!"{location}.default"
            fallback ++ checkChoice (choice :: choices) .sampleNotChoice source
              s!"{location}.example" (sample.filter (!isArray ·)) := rfl
      rw [checks, List.append_eq_nil_iff, checkChoice_eq_nil_iff, checkChoice_eq_nil_iff]
      constructor
      · rintro ⟨fallbackFits, sampleFits⟩
        refine ⟨nofun, ?_, ?_⟩
        · rintro _ ⟨⟩
          exact fallbackFits
        · rintro _ ⟨⟩ value isSample notArray
          exact sampleFits value (Option.mem_filter_iff.mpr ⟨isSample, by simp [notArray]⟩)
      · intro fit
        refine ⟨fit.fallback _ rfl, fun value isSample => ?_⟩
        obtain ⟨isSample, notArray⟩ := Option.mem_filter_iff.mp isSample
        exact fit.sample _ rfl value isSample (by simpa using notArray)

mutual

/-- Checking a field finds nothing exactly if every field inside it breaks no
rule. -/
theorem checkField_eq_nil_iff {owner : String} :
    ∀ {location : String} {field : Field}, checkField known owner source location field = [] ↔
      ∀ inner : Field, inner.Inside field →
        inner.Obeys fun target => target ∈ known ∧ target ≠ owner
  | _, .primitive type notes => by
      rw [checkField, checkChoices_eq_nil_iff, Field.forall_inside_leaf_iff rfl]
      exact ⟨fun fit => ⟨fit, nofun, nofun⟩, Field.Obeys.choices⟩
  | _, .anyArray notes => by
      rw [checkField, checkChoices_eq_nil_iff, Field.forall_inside_leaf_iff rfl]
      exact ⟨fun fit => ⟨fit, nofun, nofun⟩, Field.Obeys.choices⟩
  | _, .array item notes => by
      rw [checkField, List.append_eq_nil_iff, checkChoices_eq_nil_iff, checkField_eq_nil_iff,
        Field.forall_inside_array_iff, Field.obeys_array_iff, Notes.Fit]
  | _, .object properties required notes => by
      rw [checkField, List.append_eq_nil_iff, List.append_eq_nil_iff, checkChoices_eq_nil_iff,
        checkRequired_eq_nil_iff, checkFields_eq_nil_iff, Field.forall_inside_object_iff,
        Field.obeys_object_iff, Notes.Fit]
  | location, .reference schema notes => by
      have refers : (if schema = owner then [problem (.selfReference owner) source location]
          else if known.contains schema then []
          else [problem (.unknownSchema schema) source location]) = [] ↔
            schema ∈ known ∧ schema ≠ owner := by
        by_cases same : schema = owner
        · simp [same]
        · simp [same]
      rw [checkField, List.append_eq_nil_iff, checkChoices_eq_nil_iff, refers,
        Field.forall_inside_leaf_iff rfl, Field.obeys_reference_iff, Notes.Fit]

/-- Checking named fields finds nothing exactly if every field inside them breaks no
rule. -/
theorem checkFields_eq_nil_iff {owner : String} :
    ∀ {location : String} {fields : List (String × Field)},
      checkFields known owner source location fields = [] ↔
        ∀ entry ∈ fields, ∀ inner : Field, inner.Inside entry.2 →
          inner.Obeys fun target => target ∈ known ∧ target ≠ owner
  | _, [] => by simp [checkFields]
  | _, (name, field) :: fields => by
      rw [checkFields, List.append_eq_nil_iff, checkField_eq_nil_iff, checkFields_eq_nil_iff,
        List.forall_mem_cons]

end

/-! ## What the checks of schemas find -/

theorem foldItem_of_bare {schema : Schema}
    (bare : ∀ item ∈ schema.items, ∃ required notes, item = .object [] required notes) :
    foldItem schema = (foldedItem schema, none) := by
  rw [foldItem]
  cases hasItems : schema.items with
  | none => rfl
  | some item =>
      obtain ⟨required, notes, rfl⟩ := bare item hasItems
      rfl

theorem bare_of_foldItem {schema : Schema} (noFault : (foldItem schema).2 = none) :
    ∀ item ∈ schema.items, ∃ required notes, item = .object [] required notes := by
  intro item isItem
  rw [foldItem, Option.mem_def.mp isItem] at noFault
  split at noFault
  next same => contradiction
  next required notes same => exact ⟨required, notes, Option.some.inj same⟩
  next => contradiction
  next => contradiction

theorem fit_foldedItem_iff {schema : Schema} :
    (foldedItem schema).notes.Fit ↔ ∀ item ∈ schema.items, item.notes.Fit := by
  rw [foldedItem, Field.notes]
  cases schema.items with
  | none =>
      exact iff_of_true ⟨by simp, by simp, by simp⟩ (by simp)
  | some item => simp

/-- An array schema without fields has no problems exactly if it requires nothing and
no field in its item breaks a rule. -/
theorem checkArraySchema_eq_nil_iff_of_isEmpty {schema : Schema} (noFields : schema.fields = []) :
    checkArraySchema known source location schema = [] ↔
      schema.required = [] ∧ ∀ item ∈ schema.items, ∀ inner : Field, inner.Inside item →
        inner.Obeys fun target => target ∈ known ∧ target ≠ schema.name := by
  rw [checkArraySchema, noFields, List.isEmpty_nil, if_pos rfl, List.append_eq_nil_iff]
  refine and_congr ?_ ?_
  · cases schema.required <;> simp
  · cases schema.items with
    | none => simp
    | some item => simp [checkField_eq_nil_iff]

/-- An array schema with fields has no problems exactly if it has no item or a bare
object as item, and the fields make an object that breaks no rule. -/
theorem checkArraySchema_eq_nil_iff_of_fields {schema : Schema} (hasFields : schema.fields ≠ []) :
    checkArraySchema known source location schema = [] ↔
      (∀ item ∈ schema.items, ∃ required notes, item = .object [] required notes) ∧
        (∀ item ∈ schema.items, item.notes.Fit) ∧
        (∀ name ∈ schema.required, name ∈ Entries.keys schema.fields) ∧
        ∀ entry ∈ schema.fields, ∀ inner : Field, inner.Inside entry.2 →
          inner.Obeys fun target => target ∈ known ∧ target ≠ schema.name := by
  have notEmpty : ¬ schema.fields.isEmpty = true := by simpa using hasFields
  have folded : checkField known schema.name source s!"{location}.items" (foldedItem schema) = [] ↔
      (∀ item ∈ schema.items, item.notes.Fit) ∧
        (∀ name ∈ schema.required, name ∈ Entries.keys schema.fields) ∧
        ∀ entry ∈ schema.fields, ∀ inner : Field, inner.Inside entry.2 →
          inner.Obeys fun target => target ∈ known ∧ target ≠ schema.name := by
    rw [← fit_foldedItem_iff, foldedItem, checkField_eq_nil_iff, Field.forall_inside_object_iff,
      Field.obeys_object_iff, and_assoc]
    exact Iff.rfl
  rw [checkArraySchema, if_neg notEmpty, ← folded]
  cases isFolded : foldItem schema with
  | mk item fault =>
      constructor
      · intro noProblem
        obtain ⟨noFault, noFieldProblem⟩ := List.append_eq_nil_iff.mp noProblem
        have noFault : (foldItem schema).2 = none := by simpa [isFolded] using noFault
        have bare := bare_of_foldItem noFault
        obtain ⟨rfl, -⟩ := Prod.mk.inj (isFolded.symm.trans (foldItem_of_bare bare))
        exact ⟨bare, noFieldProblem⟩
      · rintro ⟨bare, noFieldProblem⟩
        obtain ⟨rfl, rfl⟩ := Prod.mk.inj (isFolded.symm.trans (foldItem_of_bare bare))
        simpa using noFieldProblem

end Check

namespace Schema

variable {known : List String} {schema : Schema}

theorem Faultless.fieldsObey (faultless : schema.Faultless known) :
    ∀ entry ∈ schema.fields, ∀ inner : Field, inner.Inside entry.2 →
      inner.Obeys fun target => target ∈ known ∧ target ≠ schema.name := by
  intro entry isField inner inside
  have holds : schema.Holds inner := .inl ⟨entry, isField, inside⟩
  exact ⟨faultless.fieldChoices inner holds, faultless.references inner holds,
    faultless.fieldsRequire entry isField inner inside⟩

theorem Faultless.itemObeys (faultless : schema.Faultless known) (noFields : schema.fields = []) :
    ∀ item ∈ schema.items, ∀ inner : Field, inner.Inside item →
      inner.Obeys fun target => target ∈ known ∧ target ≠ schema.name := by
  intro item isItem inner inside
  have holds : schema.Holds inner := .inr ⟨item, isItem, inside⟩
  refine ⟨faultless.fieldChoices inner holds, faultless.references inner holds, ?_⟩
  rcases Field.inside_iff.mp inside with rfl | ⟨part, isPart, inPart⟩
  · exact faultless.itemRequires noFields inner isItem
  · exact faultless.partsRequire item isItem part isPart inner inPart

/-- A schema without items whose fields break no rule. -/
theorem faultless_of_fields (choices : ChoicesFit schema.choices none schema.sample)
    (noItems : schema.items = none) (notArray : schema.type ≠ .array)
    (declared : schema.type = .object → ∀ name ∈ schema.required, name ∈ Entries.keys schema.fields)
    (neither : schema.type ≠ .object → schema.fields = [] ∧ schema.required = [])
    (fieldsObey : ∀ entry ∈ schema.fields, ∀ inner : Field, inner.Inside entry.2 →
      inner.Obeys fun target => target ∈ known ∧ target ≠ schema.name) :
    schema.Faultless known := by
  have obeys (field : Field) (holds : schema.Holds field) :
      field.Obeys fun target => target ∈ known ∧ target ≠ schema.name := by
    rcases holds with ⟨entry, isField, inside⟩ | ⟨item, isItem, inside⟩
    · exact fieldsObey entry isField field inside
    · simp [noItems] at isItem
  exact {
    choices
    fieldChoices := fun field holds => (obeys field holds).choices
    references := fun field holds => (obeys field holds).refers
    required := fun hasFields => declared (hasFields.resolve_right fun isArray => notArray isArray.1)
    fieldsRequire := fun entry isField field inside =>
      (fieldsObey entry isField field inside).requires
    itemRequires := by simp [noItems]
    partsRequire := by simp [noItems]
    arrayWithoutFields := fun isArray => absurd isArray notArray
    arrayWithFields := fun isArray => absurd isArray notArray
    neither := fun notObject _ => neither notObject }

/-- An array schema without fields whose item breaks no rule. -/
theorem faultless_of_item (choices : ChoicesFit schema.choices none schema.sample)
    (isArray : schema.type = .array) (noFields : schema.fields = [])
    (noRequired : schema.required = [])
    (itemObeys : ∀ item ∈ schema.items, ∀ inner : Field, inner.Inside item →
      inner.Obeys fun target => target ∈ known ∧ target ≠ schema.name) :
    schema.Faultless known := by
  have obeys (field : Field) (holds : schema.Holds field) :
      field.Obeys fun target => target ∈ known ∧ target ≠ schema.name := by
    rcases holds with ⟨entry, isField, inside⟩ | ⟨item, isItem, inside⟩
    · simp [noFields] at isField
    · exact itemObeys item isItem field inside
  exact {
    choices
    fieldChoices := fun field holds => (obeys field holds).choices
    references := fun field holds => (obeys field holds).refers
    required := by simp [noRequired]
    fieldsRequire := by simp [noFields]
    itemRequires := fun _ item isItem => (itemObeys item isItem item .self).requires
    partsRequire := fun item isItem part isPart field inside =>
      (itemObeys item isItem field (.part isPart inside)).requires
    arrayWithoutFields := fun _ _ => noRequired
    arrayWithFields := fun _ hasFields => absurd noFields hasFields
    neither := fun _ notArray => absurd isArray notArray }

/-- An array schema with fields that break no rule and go well with its item. -/
theorem faultless_of_fields_of_item (choices : ChoicesFit schema.choices none schema.sample)
    (isArray : schema.type = .array) (hasFields : schema.fields ≠ [])
    (bare : ∀ item ∈ schema.items, ∃ required notes, item = .object [] required notes)
    (fit : ∀ item ∈ schema.items, item.notes.Fit)
    (declared : ∀ name ∈ schema.required, name ∈ Entries.keys schema.fields)
    (fieldsObey : ∀ entry ∈ schema.fields, ∀ inner : Field, inner.Inside entry.2 →
      inner.Obeys fun target => target ∈ known ∧ target ≠ schema.name) :
    schema.Faultless known := by
  have isBare {item field : Field} (isItem : item ∈ schema.items) (inside : field.Inside item) :
      field = item ∧ ∃ required notes, field = .object [] required notes := by
    obtain ⟨required, notes, rfl⟩ := bare item isItem
    rcases Field.inside_iff.mp inside with rfl | ⟨part, isPart, -⟩
    · exact ⟨rfl, required, notes, rfl⟩
    · simp [Field.parts] at isPart
  refine {
    choices
    fieldChoices := ?_
    references := ?_
    required := fun _ => declared
    fieldsRequire := fun entry isField field inside =>
      (fieldsObey entry isField field inside).requires
    itemRequires := fun noFields => absurd noFields hasFields
    partsRequire := ?_
    arrayWithoutFields := fun _ noFields => absurd noFields hasFields
    arrayWithFields := fun _ _ => bare
    neither := fun _ notArray => absurd isArray notArray }
  · rintro field (⟨entry, isField, inside⟩ | ⟨item, isItem, inside⟩)
    · exact (fieldsObey entry isField field inside).choices
    · obtain ⟨rfl, -⟩ := isBare isItem inside
      exact fit field isItem
  · rintro field (⟨entry, isField, inside⟩ | ⟨item, isItem, inside⟩)
    · exact (fieldsObey entry isField field inside).refers
    · obtain ⟨-, required, notes, rfl⟩ := isBare isItem inside
      intro target others same
      contradiction
  · intro item isItem part isPart
    obtain ⟨required, notes, rfl⟩ := bare item isItem
    simp [Field.parts] at isPart

end Schema

namespace Check

variable {known : List String} {source location : String}

/-- A schema that has items only if it is an array has no problems exactly if it
breaks no rule. -/
theorem checkSchema_eq_nil_iff {schema : Schema}
    (hasItems : schema.items ≠ none → schema.type = .array) :
    checkSchema known source schema = [] ↔ schema.Faultless known := by
  rw [checkSchema, List.append_eq_nil_iff, checkChoices_eq_nil_iff]
  cases isType : schema.type with
  | object =>
      have notArray : schema.type ≠ .array := by simp [isType]
      have noItems := Decidable.not_not.mp (mt hasItems notArray)
      dsimp only
      rw [List.append_eq_nil_iff, checkRequired_eq_nil_iff, checkFields_eq_nil_iff]
      constructor
      · rintro ⟨choices, declared, fieldsObey⟩
        exact Schema.faultless_of_fields choices noItems notArray (fun _ => declared)
          (fun notObject => absurd isType notObject) fieldsObey
      · exact fun faultless =>
          ⟨faultless.choices, faultless.required (.inl isType), faultless.fieldsObey⟩
  | primitive type =>
      have notArray : schema.type ≠ .array := by simp [isType]
      have notObject : schema.type ≠ .object := by simp [isType]
      have noItems := Decidable.not_not.mp (mt hasItems notArray)
      have bare : (if schema.fields.isEmpty && schema.required.isEmpty then []
          else [problem (.fieldsNotAllowed (.primitive type)) source s!"schemas.{schema.name}"]) =
            [] ↔ schema.fields = [] ∧ schema.required = [] := by
        simp
      dsimp only
      rw [bare]
      constructor
      · rintro ⟨choices, noFields, noRequired⟩
        exact Schema.faultless_of_fields choices noItems notArray
          (fun isObject => absurd isObject notObject) (fun _ => ⟨noFields, noRequired⟩)
          (by simp [noFields])
      · exact fun faultless => ⟨faultless.choices, faultless.neither notObject notArray⟩
  | array =>
      dsimp only
      by_cases noFields : schema.fields = []
      · rw [checkArraySchema_eq_nil_iff_of_isEmpty noFields]
        constructor
        · rintro ⟨choices, noRequired, itemObeys⟩
          exact Schema.faultless_of_item choices isType noFields noRequired itemObeys
        · exact fun faultless => ⟨faultless.choices, faultless.arrayWithoutFields isType noFields,
            faultless.itemObeys noFields⟩
      · rw [checkArraySchema_eq_nil_iff_of_fields noFields]
        constructor
        · rintro ⟨choices, bare, fit, declared, fieldsObey⟩
          exact Schema.faultless_of_fields_of_item choices isType noFields bare fit declared
            fieldsObey
        · intro faultless
          refine ⟨faultless.choices, faultless.arrayWithFields isType noFields, ?_,
            faultless.required (.inr ⟨isType, noFields⟩), faultless.fieldsObey⟩
          exact fun item isItem => faultless.fieldChoices item (.inr ⟨item, isItem, .self⟩)
end Check

end ApiWorkshop
