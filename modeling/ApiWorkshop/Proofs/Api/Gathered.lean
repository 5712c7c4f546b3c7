import ApiWorkshop.Proofs.Api.Idempotent

/-!
# What accepted definitions come to

Definitions are accepted when nothing is declared twice and every declaration by
itself passes its check, wherever it stands and whatever more schemas there are.
Then nothing is left out on the way to the API: it has the endpoints, the schemas
and the translations of all files, completed and in the order of the files.
-/

namespace ApiWorkshop

theorem Field.Obeys.imp {allowed weaker : String → Prop} {field : Field}
    (isWeaker : ∀ schema, allowed schema → weaker schema) (obeys : field.Obeys allowed) :
    field.Obeys weaker :=
  ⟨obeys.choices, fun schema notes isReference =>
    isWeaker schema (obeys.refers schema notes isReference), obeys.requires⟩

namespace Check

variable {known other : List String} {source location : String}

/-! ## Checks where more schemas are known -/

theorem obeys_mono (subset : known ⊆ other) {owner : String} {field : Field}
    (obeys : field.Obeys fun target => target ∈ known ∧ target ≠ owner) :
    field.Obeys fun target => target ∈ other ∧ target ≠ owner :=
  obeys.imp fun _ isAllowed => ⟨subset isAllowed.1, isAllowed.2⟩

theorem checkArraySchema_eq_nil_mono (subset : known ⊆ other) {schema : Schema}
    (another place : String) (noProblem : checkArraySchema known source location schema = []) :
    checkArraySchema other another place schema = [] := by
  by_cases noFields : schema.fields = []
  · obtain ⟨noRequired, itemsObey⟩ :=
      (checkArraySchema_eq_nil_iff_of_isEmpty noFields).mp noProblem
    exact (checkArraySchema_eq_nil_iff_of_isEmpty noFields).mpr
      ⟨noRequired, fun item isItem inner inside =>
        obeys_mono subset (itemsObey item isItem inner inside)⟩
  · obtain ⟨bare, fit, declared, fieldsObey⟩ :=
      (checkArraySchema_eq_nil_iff_of_fields noFields).mp noProblem
    exact (checkArraySchema_eq_nil_iff_of_fields noFields).mpr
      ⟨bare, fit, declared, fun entry isField inner inside =>
        obeys_mono subset (fieldsObey entry isField inner inside)⟩

/-- Whether a schema has problems does not depend on the file that it stands in, and it
gets none when more schemas are known. -/
theorem checkSchema_eq_nil_mono (subset : known ⊆ other) {schema : Schema} (another : String)
    (noProblem : checkSchema known source schema = []) : checkSchema other another schema = [] := by
  rw [checkSchema] at noProblem ⊢
  obtain ⟨noChoiceProblem, noShapeProblem⟩ := List.append_eq_nil_iff.mp noProblem
  refine List.append_eq_nil_iff.mpr
    ⟨checkChoices_eq_nil_iff.mpr (checkChoices_eq_nil_iff.mp noChoiceProblem), ?_⟩
  cases isType : schema.type with
  | primitive type =>
      rw [isType] at noShapeProblem
      by_cases isPlain : (schema.fields.isEmpty && schema.required.isEmpty) = true
      · simp [isPlain]
      · simp [isPlain] at noShapeProblem
  | array =>
      rw [isType] at noShapeProblem
      exact checkArraySchema_eq_nil_mono subset another _ noShapeProblem
  | object =>
      rw [isType] at noShapeProblem
      obtain ⟨noRequired, noFields⟩ := List.append_eq_nil_iff.mp noShapeProblem
      refine List.append_eq_nil_iff.mpr
        ⟨checkRequired_eq_nil_iff.mpr (checkRequired_eq_nil_iff.mp noRequired),
          checkFields_eq_nil_iff.mpr fun entry isField inner inside => ?_⟩
      exact obeys_mono subset (checkFields_eq_nil_iff.mp noFields entry isField inner inside)

/-! ## Declarations that pass -/

/-- Definitions in which nothing is declared twice and every declaration by itself has no
problems among known schemas. -/
structure Passed (known : List String) (definitions : List Definition) : Prop where
  schemaNames : (schemaNames definitions).Nodup
  operations : (definitions.flatMap fun definition => definition.endpoints.map fun endpoint =>
    (endpoint.method, endpoint.path)).Nodup
  tables : (definitions.flatMap fun definition => definition.translations.map fun translation =>
    (translation.model, translation.field)).Nodup
  schemas : ∀ definition ∈ definitions, ∀ entry ∈ definition.schemas, ∀ source,
    checkSchema known source entry.2 = []
  endpoints : ∀ definition ∈ definitions, ∀ endpoint ∈ definition.endpoints, ∀ source location,
    checkEndpoint known source location endpoint = []
  durations : ∀ definition ∈ definitions, ∀ translation ∈ definition.translations,
    ∀ rule ∈ translation.rules, rule.durationFault? = none

variable {definitions : List Definition}

theorem checkSchemas_eq_nil_iff (distinct : (schemaNames definitions).Nodup) :
    checkSchemas definitions = [] ↔ ∀ definition ∈ definitions, ∀ entry ∈ definition.schemas,
      ∀ source, checkSchema (schemaNames definitions) source entry.2 = [] := by
  rw [checkSchemas, List.flatMap_eq_nil_iff, splitSchemas,
    firsts_of_repeats_eq_nil (repeats_splitSchemas_eq_nil_iff.mpr distinct),
    ← forall_declaredSchemas_iff fun schema =>
      ∀ source, checkSchema (schemaNames definitions) source schema = []]
  exact forall₂_congr fun declared _ => ⟨fun noProblem source =>
    checkSchema_eq_nil_mono (List.Subset.refl _) source noProblem, fun noProblem => noProblem _⟩

theorem checkEndpoints_splitEndpoints_eq_nil_iff :
    checkEndpoints known (splitEndpoints definitions) = [] ↔
      (definitions.flatMap fun definition => definition.endpoints.map fun endpoint =>
        (endpoint.method, endpoint.path)).Nodup ∧
      ∀ definition ∈ definitions, ∀ endpoint ∈ definition.endpoints, ∀ source location,
        checkEndpoint known source location endpoint = [] := by
  rw [checkEndpoints_eq_nil_iff_forall, ← repeats_splitEndpoints_eq_nil_iff]
  refine and_congr_right fun noRepeats => ?_
  rw [splitEndpoints, firsts_of_repeats_eq_nil noRepeats,
    ← forall_declaredEndpoints_iff fun endpoint =>
      ∀ source location, checkEndpoint known source location endpoint = []]

end Check

open Check Normalize

variable {definitions : List Definition}

/-- Definitions have no problems exactly if they pass among the schemas that they declare
together. -/
theorem problems_eq_nil_iff_passed :
    problems definitions = .ok [] ↔ Passed (schemaNames definitions) definitions := by
  have noProblems : ([] : List Problem) = checkStructure definitions ++
      (splitTranslations definitions).flatMap translationProblems ↔
        Passed (schemaNames definitions) definitions := by
    rw [eq_comm, List.append_eq_nil_iff, checkStructure, List.append_eq_nil_iff,
      List.append_eq_nil_iff, checkSchemaNames, List.map_eq_nil_iff,
      repeats_splitSchemas_eq_nil_iff, checkEndpoints_splitEndpoints_eq_nil_iff,
      checkAllTranslations_eq_nil_iff]
    constructor
    · rintro ⟨⟨⟨schemaNames, noProblem⟩, operations, endpoints⟩, tables, durations⟩
      exact { schemaNames, operations, tables,
              schemas := (checkSchemas_eq_nil_iff schemaNames).mp noProblem, endpoints, durations }
    · intro passed
      exact ⟨⟨⟨passed.schemaNames, (checkSchemas_eq_nil_iff passed.schemaNames).mpr passed.schemas⟩,
        passed.operations, passed.endpoints⟩, passed.tables, passed.durations⟩
  rw [problems_eq_ok_iff, noProblems, and_iff_right_iff_imp]
  intro passed
  have nothing := List.append_eq_nil_iff.mp (noProblems.mpr passed).symm
  refine ⟨fun declared isFirst rule isRule => ?_, by simp [nothing.1]⟩
  have noFault := (forall_declaredTranslations_iff fun translation =>
    ∀ rule ∈ translation.rules, rule.durationFault? = none).mpr passed.durations
      declared (mem_of_mem_firsts _ _ isFirst)
  simp [noFault rule isRule]

/-- The placeholders of declared paths are distinct, and parameters of paths are declared
for them only. -/
theorem placeholders_of_passed {known : List String} (passed : Passed known definitions) :
    ∀ endpoint ∈ definitions.flatMap Definition.endpoints, (placeholders endpoint.path).Nodup ∧
      Entries.keys endpoint.pathParameters ⊆ placeholders endpoint.path := by
  intro endpoint isDeclared
  obtain ⟨definition, isDefinition, isEndpoint⟩ := List.mem_flatMap.mp isDeclared
  have noProblem := passed.endpoints definition isDefinition endpoint isEndpoint "" ""
  rw [checkEndpoint, List.append_eq_nil_iff, List.append_eq_nil_iff,
    checkPlaceholders_eq_nil_iff, List.map_eq_nil_iff, List.filter_eq_nil_iff] at noProblem
  obtain ⟨⟨-, distinct, -⟩, noMissing⟩ := noProblem
  exact ⟨distinct, fun name isName => by simpa using noMissing name isName⟩

namespace Api

variable {heading : Heading} {api : Api}

theorem normalize_eq_ok_iff_passed :
    normalize heading definitions = .ok api ↔
      Passed (schemaNames definitions) definitions ∧ api = Api.merge heading definitions := by
  rw [normalize_eq_ok_iff, problems_eq_nil_iff_passed]

/-- An accepted API has the endpoints of all files, in order. -/
theorem endpoints_of_normalize (isApi : normalize heading definitions = .ok api) :
    api.endpoints = (definitions.flatMap Definition.endpoints).map completeEndpoint := by
  obtain ⟨passed, rfl⟩ := normalize_eq_ok_iff_passed.mp isApi
  have withoutIndex : (declaredEndpoints definitions).map (fun declared => declared.value.2) =
      definitions.flatMap Definition.endpoints := by
    simp [declaredEndpoints, List.map_flatMap, Function.comp_def]
  rw [merge, splitEndpoints,
    firsts_of_repeats_eq_nil (repeats_splitEndpoints_eq_nil_iff.mpr passed.operations),
    ← withoutIndex, List.map_map]
  rfl

/-- An accepted API has the schemas of all files, in order. -/
theorem schemas_of_normalize (isApi : normalize heading definitions = .ok api) :
    api.schemas = (definitions.flatMap Definition.schemas).map fun entry =>
      (entry.1, completeSchema entry.2) := by
  obtain ⟨passed, rfl⟩ := normalize_eq_ok_iff_passed.mp isApi
  rw [merge, splitSchemas,
    firsts_of_repeats_eq_nil (repeats_splitSchemas_eq_nil_iff.mpr passed.schemaNames)]
  simp [declaredSchemas, List.map_flatMap, Function.comp_def]

/-- An accepted API has the translations of all files, in order. -/
theorem translations_of_normalize (isApi : normalize heading definitions = .ok api) :
    api.translations = definitions.flatMap Definition.translations := by
  obtain ⟨passed, rfl⟩ := normalize_eq_ok_iff_passed.mp isApi
  rw [merge, splitTranslations,
    firsts_of_repeats_eq_nil (repeats_splitTranslations_eq_nil_iff.mpr passed.tables)]
  simp [declaredTranslations, List.map_flatMap, Function.comp_def]

/-! ## Nothing is declared twice -/

theorem nodup_endpoints_of_normalize (isApi : normalize heading definitions = .ok api) :
    (api.endpoints.map fun endpoint => (endpoint.method, endpoint.path)).Nodup := by
  rw [endpoints_of_normalize isApi, List.map_map, List.map_flatMap]
  exact (normalize_eq_ok_iff_passed.mp isApi).1.operations

theorem nodup_schemas_of_normalize (isApi : normalize heading definitions = .ok api) :
    (Entries.keys api.schemas).Nodup := by
  rw [schemas_of_normalize isApi, Entries.keys, List.map_map, List.map_flatMap]
  exact (normalize_eq_ok_iff_passed.mp isApi).1.schemaNames

theorem nodup_translations_of_normalize (isApi : normalize heading definitions = .ok api) :
    (api.translations.map fun translation => (translation.model, translation.field)).Nodup := by
  rw [translations_of_normalize isApi, List.map_flatMap]
  exact (normalize_eq_ok_iff_passed.mp isApi).1.tables

end Api

end ApiWorkshop
