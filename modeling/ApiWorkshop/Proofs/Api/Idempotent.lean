import ApiWorkshop.Proofs.Api.Closed
import ApiWorkshop.Proofs.Api.Faultless

/-!
# Normalizing an API again

What normalizing makes of definitions is settled: written into a definition of
its own it has no problems, and normalizing it once more changes nothing.  Each
completion is its own fixed point, and what was moved or added on the way obeys
the rules that the declarations obeyed, at every depth.
-/

namespace ApiWorkshop

namespace Normalize

/-! ## Completing twice -/

@[simp]
theorem completeNotes_completeNotes (notes : Notes) :
    completeNotes (completeNotes notes) = completeNotes notes :=
  rfl

mutual

@[simp]
theorem completeField_completeField :
    ∀ field : Field, completeField (completeField field) = completeField field
  | .primitive .. => rfl
  | .anyArray _ => rfl
  | .array item _ => by
      simp [completeField, completeField_completeField item]
  | .object properties _ _ => by
      simp [completeField, completeFields_completeFields properties]
  | .reference .. => rfl

@[simp]
theorem completeFields_completeFields :
    ∀ fields : List (String × Field), completeFields (completeFields fields) = completeFields fields
  | [] => rfl
  | (_, field) :: fields => by
      simp [completeFields, completeField_completeField field,
        completeFields_completeFields fields]

end

/-- The fields of an array schema are on its items after the first time, so
nothing is moved the second time. -/
theorem completeSchema_completeSchema (schema : Schema) :
    completeSchema (completeSchema schema) = completeSchema schema := by
  cases isType : schema.type with
  | primitive type => simp [completeSchema, isType]
  | object => simp [completeSchema, isType]
  | array =>
      by_cases noFields : schema.fields.isEmpty = true
      · simp [completeSchema, isType, noFields, Function.comp_def]
      · simp [completeSchema, isType, noFields]

theorem choices_completeSchema (schema : Schema) :
    (completeSchema schema).choices = schema.choices := by
  rw [completeSchema]
  split
  · split <;> rfl
  · rfl
  · rfl

theorem sample_completeSchema (schema : Schema) :
    (completeSchema schema).sample = schema.sample := by
  rw [completeSchema]
  split
  · split <;> rfl
  · rfl
  · rfl

theorem type_completeSchema (schema : Schema) :
    (completeSchema schema).type = schema.type := by
  rw [completeSchema]
  split
  · split <;> rfl
  · rfl
  · rfl

@[simp]
theorem completeParameter_completeParameter (parameter : Parameter) :
    completeParameter (completeParameter parameter) = completeParameter parameter :=
  rfl

/-- The parameter of a placeholder is complete and required already. -/
theorem completeParameter_placeholderParameter (declared : Entries String Parameter)
    (name : String) :
    { completeParameter (placeholderParameter declared name) with required := true } =
      placeholderParameter declared name := by
  rw [placeholderParameter]
  split <;> rfl

theorem get?_placeholderParameters {declared : Entries String Parameter} {names : List String}
    {name : String} (isName : name ∈ names) :
    Entries.get? name (names.map fun other => (other, placeholderParameter declared other)) =
      some (placeholderParameter declared name) := by
  have isFound := Entries.get?_filterMap (fun other => some (placeholderParameter declared other))
    names name
  simpa [List.filterMap_eq_map', isName] using isFound

theorem keys_pathParameters_completeEndpoint (endpoint : Endpoint) :
    Entries.keys (completeEndpoint endpoint).pathParameters =
      (placeholders endpoint.path).eraseDups := by
  simp [completeEndpoint, Entries.keys, Function.comp_def]

theorem completeEndpoint_completeEndpoint (endpoint : Endpoint) :
    completeEndpoint (completeEndpoint endpoint) = completeEndpoint endpoint := by
  have parameters :
      (placeholders endpoint.path).eraseDups.map (fun name =>
        (name, placeholderParameter (completeEndpoint endpoint).pathParameters name)) =
      (completeEndpoint endpoint).pathParameters := by
    refine List.map_congr_left fun name isName => ?_
    rw [placeholderParameter, completeEndpoint, get?_placeholderParameters isName]
    exact congrArg (Prod.mk name) (completeParameter_placeholderParameter _ name)
  have rest : completeEndpoint (completeEndpoint endpoint) =
      { completeEndpoint endpoint with
        pathParameters := (placeholders endpoint.path).eraseDups.map fun name =>
          (name, placeholderParameter (completeEndpoint endpoint).pathParameters name) } := by
    simp [completeEndpoint, Function.comp_def]
  rw [rest, parameters]

end Normalize

namespace Check

open Normalize

variable {known : List String} {source : String}

/-! ## Checking what was completed -/

mutual

/-- Checks do not look at descriptions. -/
@[simp]
theorem checkField_completeField (known : List String) (owner source : String) :
    ∀ (location : String) (field : Field),
      checkField known owner source location (completeField field) =
        checkField known owner source location field
  | _, .primitive .. => rfl
  | _, .anyArray _ => rfl
  | location, .array item notes => by
      rw [completeField, checkField, checkField, checkField_completeField known owner source _ item]
      rfl
  | location, .object properties required notes => by
      rw [completeField, checkField, checkField, map_fst_completeFields,
        checkFields_completeFields known owner source _ properties]
      rfl
  | _, .reference .. => rfl

@[simp]
theorem checkFields_completeFields (known : List String) (owner source : String) :
    ∀ (location : String) (fields : List (String × Field)),
      checkFields known owner source location (completeFields fields) =
        checkFields known owner source location fields
  | _, [] => rfl
  | location, (name, field) :: fields => by
      rw [completeFields, checkFields, checkFields,
        checkField_completeField known owner source _ field,
        checkFields_completeFields known owner source _ fields]

end

/-- Whether a field has problems does not depend on where it stands. -/
theorem checkField_eq_nil_of_checkField {owner other location place : String} {field : Field}
    (noProblem : checkField known owner source location field = []) :
    checkField known owner other place field = [] :=
  checkField_eq_nil_iff.mpr (checkField_eq_nil_iff.mp noProblem)

/-- An array schema without problems has none after its fields moved onto its
items. -/
theorem checkArraySchema_completeSchema {schema : Schema} (isArray : schema.type = .array)
    {location : String} (other place : String)
    (noProblem : checkArraySchema known source location schema = []) :
    checkArraySchema known other place (completeSchema schema) = [] := by
  rw [checkArraySchema] at noProblem
  by_cases noFields : schema.fields.isEmpty = true
  · rw [if_pos noFields] at noProblem
    have noItemProblem := (List.append_eq_nil_iff.mp noProblem).2
    cases hasItems : schema.items with
    | none => simp [completeSchema, isArray, noFields, hasItems, checkArraySchema]
    | some item =>
        rw [hasItems] at noItemProblem
        simpa [completeSchema, isArray, noFields, hasItems, checkArraySchema] using
          checkField_eq_nil_of_checkField noItemProblem
  · rw [if_neg noFields] at noProblem
    have noItemProblem := (List.append_eq_nil_iff.mp noProblem).2
    have noFoldedProblem : checkField known schema.name other s!"{place}.items"
        (foldItem schema).1 = [] := checkField_eq_nil_of_checkField noItemProblem
    simpa [completeSchema, isArray, noFields, checkArraySchema] using noFoldedProblem

/-- A schema without problems has none after it was completed, in any file. -/
theorem checkSchema_completeSchema {schema : Schema} (other : String)
    (noProblem : checkSchema known source schema = []) :
    checkSchema known other (completeSchema schema) = [] := by
  rw [checkSchema] at noProblem
  obtain ⟨noChoiceProblem, noShapeProblem⟩ := List.append_eq_nil_iff.mp noProblem
  have choicesFit := checkChoices_eq_nil_iff.mp noChoiceProblem
  rw [checkSchema, choices_completeSchema, sample_completeSchema, type_completeSchema,
    checkChoices_eq_nil_iff.mpr choicesFit, List.nil_append]
  cases isType : schema.type with
  | primitive type => simp [completeSchema, isType]
  | array =>
      rw [isType] at noShapeProblem
      exact checkArraySchema_completeSchema isType other _ noShapeProblem
  | object =>
      rw [isType] at noShapeProblem
      obtain ⟨noRequired, noFields⟩ := List.append_eq_nil_iff.mp noShapeProblem
      have declared := checkRequired_eq_nil_iff.mp noRequired
      have fieldsObey := checkFields_eq_nil_iff.mp noFields
      have completed : completeSchema schema =
          { schema with
            description := some (schema.description.getD "")
            fields := completeFields schema.fields } := by
        rw [completeSchema, isType]
      rw [completed, List.append_eq_nil_iff]
      refine ⟨checkRequired_eq_nil_iff.mpr ?_, ?_⟩
      · rwa [Entries.keys, map_fst_completeFields]
      · rw [checkFields_completeFields]
        exact checkFields_eq_nil_iff.mpr fieldsObey

theorem faultless_placeholderParameter {declared : Entries String Parameter} {name : String}
    (areFaultless : ∀ parameter, Entries.get? name declared = some parameter →
      parameter.Faultless known) : (placeholderParameter declared name).Faultless known := by
  rw [placeholderParameter]
  split
  next parameter isDeclared =>
    exact ⟨(areFaultless parameter isDeclared).choices, (areFaultless parameter isDeclared).schema⟩
  next => exact ⟨⟨by simp, by simp, by simp⟩, by simp⟩

/-- An endpoint without problems breaks no rule after it was completed. -/
theorem faultless_completeEndpoint {location : String} {endpoint : Endpoint}
    (noProblem : checkEndpoint known source location endpoint = []) :
    (completeEndpoint endpoint).Faultless known := by
  rw [checkEndpoint] at noProblem
  simp only [List.append_eq_nil_iff, List.flatMap_eq_nil_iff, checkBody_eq_nil_iff,
    checkPlaceholders_eq_nil_iff, checkParameter_eq_nil_iff] at noProblem
  obtain ⟨⟨⟨body, query⟩, distinct, -, areDeclared⟩, -⟩ := noProblem
  refine {
    body := ?_
    query := ?_
    pathParameters := ?_
    distinct
    declared := ?_ }
  · intro completed isBody
    obtain ⟨declared, isDeclared, rfl⟩ := Option.map_eq_some_iff.mp isBody
    exact body declared isDeclared
  · exact List.forall_mem_map.mpr fun entry isEntry =>
      ⟨(query entry isEntry).choices, (query entry isEntry).schema⟩
  · exact List.forall_mem_map.mpr fun name isName =>
      faultless_placeholderParameter (areDeclared name (List.mem_eraseDups.mp isName))
  · rw [keys_pathParameters_completeEndpoint]
    exact fun name isName => List.mem_eraseDups.mp isName

end Check

/-! ## What was normalized -/

namespace Api

open Check Normalize

/-- An API that is complete and obeys the rules of definitions. -/
structure Settled (api : Api) : Prop where
  names : (Entries.keys api.schemas).Nodup
  operations : (api.endpoints.map fun endpoint => (endpoint.method, endpoint.path)).Nodup
  tables : (api.translations.map fun translation => (translation.model, translation.field)).Nodup
  schemas : ∀ entry ∈ api.schemas, completeSchema entry.2 = entry.2 ∧
    ∀ source, checkSchema (Entries.keys api.schemas) source entry.2 = []
  endpoints : ∀ endpoint ∈ api.endpoints, completeEndpoint endpoint = endpoint ∧
    endpoint.Faultless (Entries.keys api.schemas)
  durations : ∀ translation ∈ api.translations, ∀ rule ∈ translation.rules,
    rule.durationFault? = none

theorem normalize_eq_ok_iff {heading : Heading} {definitions : List Definition} {api : Api} :
    normalize heading definitions = .ok api ↔
      problems definitions = .ok [] ∧ api = Api.merge heading definitions := by
  rw [normalize]
  cases areFound : problems definitions with
  | error failure => simp
  | ok found => cases found <;> simp [eq_comm]

/-- Without repeats the schemas of an API have the names that are declared. -/
theorem keys_schemas_merge {definitions : List Definition} (heading : Heading)
    (noRepeats : repeats (splitSchemas definitions) = []) :
    Entries.keys (Api.merge heading definitions).schemas = schemaNames definitions := by
  have firstNames : Entries.keys (Api.merge heading definitions).schemas =
      (firsts (splitSchemas definitions)).map fun declared => declared.value.1 := by
    simp [merge, Entries.keys, Function.comp_def]
  rw [firstNames, splitSchemas, firsts_of_repeats_eq_nil noRepeats, keys_declaredSchemas]

/-- What normalizing makes of definitions is settled. -/
theorem settled_of_normalize {heading : Heading} {definitions : List Definition} {api : Api}
    (isApi : normalize heading definitions = .ok api) : api.Settled := by
  obtain ⟨noProblems, rfl⟩ := normalize_eq_ok_iff.mp isApi
  obtain ⟨-, nothing⟩ := problems_eq_ok_iff.mp noProblems
  obtain ⟨noFault, noTableProblem⟩ := List.append_eq_nil_iff.mp nothing.symm
  obtain ⟨front, noEndpointProblem⟩ := List.append_eq_nil_iff.mp noFault
  obtain ⟨noNameProblem, noSchemaProblem⟩ := List.append_eq_nil_iff.mp front
  obtain ⟨-, noDurationProblem⟩ := translationProblems_eq_nil_iff.mp noTableProblem
  have known := keys_schemas_merge heading (List.map_eq_nil_iff.mp noNameProblem)
  refine {
    names := ?_
    operations := ?_
    tables := ?_
    schemas := List.forall_mem_map.mpr fun declared isFirst => ?_
    endpoints := List.forall_mem_map.mpr fun declared isFirst => ?_
    durations := List.forall_mem_map.mpr noDurationProblem }
  · have distinct := (nodup_firsts Prod.fst [] (declaredSchemas definitions)).1
    simpa [merge, Entries.keys, Function.comp_def, splitSchemas] using distinct
  · have distinct := (nodup_firsts (fun entry : Nat × Endpoint =>
      (entry.2.method, entry.2.path)) [] (declaredEndpoints definitions)).1
    simpa [merge, Function.comp_def, splitEndpoints, completeEndpoint] using distinct
  · have distinct := (nodup_firsts (fun translation : Translation =>
      (translation.model, translation.field)) [] (declaredTranslations definitions)).1
    simpa [merge, Function.comp_def, splitTranslations] using distinct
  · rw [known]
    exact ⟨completeSchema_completeSchema _, fun source =>
      checkSchema_completeSchema source (List.flatMap_eq_nil_iff.mp noSchemaProblem _ isFirst)⟩
  · rw [known]
    obtain ⟨location, noFault⟩ := checkEndpoint_eq_nil noEndpointProblem declared isFirst
    exact ⟨completeEndpoint_completeEndpoint _, faultless_completeEndpoint noFault⟩

theorem Settled.nodup_keys_pathParameters {api : Api} (settled : api.Settled)
    {endpoint : Endpoint} (isEndpoint : endpoint ∈ api.endpoints) :
    (Entries.keys endpoint.pathParameters).Nodup := by
  obtain ⟨isComplete, faultless⟩ := settled.endpoints endpoint isEndpoint
  rw [← isComplete, keys_pathParameters_completeEndpoint,
    Entries.eraseDups_of_nodup faultless.distinct]
  exact faultless.distinct

/-! ## A definition of what was normalized -/

/-- An API written into one definition that has a source and texts of its own. -/
def inDefinition (api : Api) (shell : Definition) : Definition :=
  { shell with
    endpoints := api.endpoints
    schemas := api.schemas
    translations := api.translations }

section InDefinition

variable {api : Api} (shell : Definition)

theorem schemaNames_inDefinition :
    schemaNames [api.inDefinition shell] = Entries.keys api.schemas :=
  List.flatMap_singleton ..

theorem firsts_splitSchemas_inDefinition (settled : api.Settled) :
    firsts (splitSchemas [api.inDefinition shell]) =
      api.schemas.map fun entry => ⟨shell.source, entry⟩ := by
  have noRepeats : repeats (splitSchemas [api.inDefinition shell]) = [] := by
    rw [repeats_splitSchemas_eq_nil_iff, schemaNames_inDefinition]
    exact settled.names
  rw [splitSchemas, firsts_of_repeats_eq_nil noRepeats]
  exact List.flatMap_singleton ..

theorem repeats_splitEndpoints_inDefinition (settled : api.Settled) :
    repeats (splitEndpoints [api.inDefinition shell]) = [] := by
  rw [repeats_splitEndpoints_eq_nil_iff, List.flatMap_singleton]
  exact settled.operations

theorem firsts_splitEndpoints_inDefinition (settled : api.Settled) :
    (firsts (splitEndpoints [api.inDefinition shell])).map (fun declared => declared.value.2) =
      api.endpoints := by
  rw [splitEndpoints,
    firsts_of_repeats_eq_nil (repeats_splitEndpoints_inDefinition shell settled)]
  have numbered : declaredEndpoints [api.inDefinition shell] =
      api.endpoints.zipIdx.map fun entry => ⟨shell.source, (entry.2, entry.1)⟩ :=
    List.flatMap_singleton ..
  rw [numbered, List.map_map]
  exact List.zipIdx_map_fst 0 api.endpoints

theorem repeats_splitTranslations_inDefinition (settled : api.Settled) :
    repeats (splitTranslations [api.inDefinition shell]) = [] := by
  rw [repeats_splitTranslations_eq_nil_iff, List.flatMap_singleton]
  exact settled.tables

theorem firsts_splitTranslations_inDefinition (settled : api.Settled) :
    (firsts (splitTranslations [api.inDefinition shell])).map Declared.value =
      api.translations := by
  rw [splitTranslations,
    firsts_of_repeats_eq_nil (repeats_splitTranslations_inDefinition shell settled)]
  have declared : declaredTranslations [api.inDefinition shell] =
      api.translations.map fun translation => ⟨shell.source, translation⟩ :=
    List.flatMap_singleton ..
  rw [declared, List.map_map]
  exact List.map_id _

theorem Settled.checkStructure_eq_nil (settled : api.Settled) :
    checkStructure [api.inDefinition shell] = [] := by
  have areEndpoints : ∀ declared ∈ firsts (splitEndpoints [api.inDefinition shell]),
      declared.value.2 ∈ api.endpoints := fun declared isFirst => by
    rw [← firsts_splitEndpoints_inDefinition shell settled]
    exact List.mem_map_of_mem isFirst
  rw [checkStructure, List.append_eq_nil_iff, List.append_eq_nil_iff, checkSchemaNames,
    List.map_eq_nil_iff, repeats_splitSchemas_eq_nil_iff, checkSchemas,
    firsts_splitSchemas_inDefinition shell settled, schemaNames_inDefinition,
    List.flatMap_eq_nil_iff, List.forall_mem_map,
    checkEndpoints_eq_nil_iff fun declared isFirst =>
      settled.nodup_keys_pathParameters (areEndpoints declared isFirst)]
  refine ⟨⟨settled.names, fun entry isEntry => ?_⟩, ?_, fun declared isFirst => ?_⟩
  · exact (settled.schemas entry isEntry).2 shell.source
  · exact repeats_splitEndpoints_inDefinition shell settled
  · exact (settled.endpoints _ (areEndpoints declared isFirst)).2

theorem Settled.translationProblems_eq_nil (settled : api.Settled) :
    (splitTranslations [api.inDefinition shell]).flatMap translationProblems = [] := by
  refine translationProblems_eq_nil_iff.mpr
    ⟨repeats_splitTranslations_inDefinition shell settled, fun declared isFirst => ?_⟩
  have isTable : declared.value ∈ api.translations := by
    rw [← firsts_splitTranslations_inDefinition shell settled]
    exact List.mem_map_of_mem isFirst
  exact settled.durations declared.value isTable

/-- A settled API in a definition has no problems. -/
theorem Settled.problems_eq_nil (settled : api.Settled) :
    problems [api.inDefinition shell] = .ok [] := by
  have noFault := settled.checkStructure_eq_nil shell
  have noTableProblem := settled.translationProblems_eq_nil shell
  have noLongSpan : ∀ declared ∈ firsts (splitTranslations [api.inDefinition shell]),
      InRange declared := fun declared isFirst rule isRule => by
    have durations := (translationProblems_eq_nil_iff.mp noTableProblem).2
    simp [durations declared isFirst rule isRule]
  exact problems_eq_ok_iff.mpr ⟨⟨noLongSpan, by simp [noFault]⟩, by simp [noFault, noTableProblem]⟩

/-- Merging a settled API in a definition gives its parts again. -/
theorem Settled.merge_inDefinition (settled : api.Settled) (heading : Heading) :
    (merge heading [api.inDefinition shell]).endpoints = api.endpoints ∧
      (merge heading [api.inDefinition shell]).schemas = api.schemas ∧
      (merge heading [api.inDefinition shell]).translations = api.translations := by
  refine ⟨?_, ?_, firsts_splitTranslations_inDefinition shell settled⟩
  · have merged : (merge heading [api.inDefinition shell]).endpoints =
        ((firsts (splitEndpoints [api.inDefinition shell])).map
          fun declared => declared.value.2).map completeEndpoint := by
      rw [List.map_map]
      rfl
    rw [merged, firsts_splitEndpoints_inDefinition shell settled,
      List.map_congr_left fun endpoint isEndpoint => (settled.endpoints endpoint isEndpoint).1,
      List.map_id']
  · have completed : ∀ entry ∈ api.schemas, (entry.1, completeSchema entry.2) = entry :=
      fun entry isEntry => by rw [(settled.schemas entry isEntry).1]
    have merged : (merge heading [api.inDefinition shell]).schemas =
        api.schemas.map fun entry => (entry.1, completeSchema entry.2) := by
      rw [merge, firsts_splitSchemas_inDefinition shell settled, List.map_map]
      rfl
    rw [merged, List.map_congr_left completed, List.map_id']

end InDefinition

/-- Normalizing is idempotent: an API that was made of definitions, written into one
definition, has no problems and comes out as it is. -/
theorem normalize_inDefinition {heading : Heading} {definitions : List Definition} {api : Api}
    (isApi : normalize heading definitions = .ok api) (again : Heading) (shell : Definition) :
    problems [api.inDefinition shell] = .ok [] ∧
      ∃ settled, normalize again [api.inDefinition shell] = .ok settled ∧
        settled.endpoints = api.endpoints ∧ settled.schemas = api.schemas ∧
        settled.translations = api.translations := by
  have settled := settled_of_normalize isApi
  have noProblems := settled.problems_eq_nil shell
  exact ⟨noProblems, merge again [api.inDefinition shell],
    normalize_eq_ok_iff.mpr ⟨noProblems, rfl⟩, settled.merge_inDefinition shell again⟩

/-- Two files: an endpoint with a placeholder that declares no parameter for it, and
an array schema that declares the fields of its items. -/
def shelfDefinitions : List Definition :=
  [{ source := "api.toml"
     endpoints := [
       { path := "/shelf/\x7bid\x7d", method := .post, body := some { schema := "shelf" } }]
     translations := [⟨"shelf", "seen", [⟨"$span:1h", "new"⟩]⟩] },
    { source := "shelf.toml"
      schemas := [("shelf", {
        name := "shelf"
        type := .array
        required := ["book"]
        fields := [("book", .reference "book" {})]
        items := some (.object [] ["gone"] {}) }),
        ("book", { name := "book", fields := [("title", .primitive .string {})] })] }]

/-- The fields of the array schema move onto its items and the placeholder gets a
parameter, and then nothing changes any more. -/
theorem normalize_inDefinition_of_shelfDefinitions :
    ∃ api settled, normalize {} shelfDefinitions = .ok api ∧
      api.schemas.map (fun entry => entry.2.items.map Field.notes) =
        [some { description := some "" }, none] ∧
      api.endpoints.map (fun endpoint => Entries.keys endpoint.pathParameters) = [["id"]] ∧
      normalize {} [api.inDefinition { source := "again.toml" }] = .ok settled ∧
      settled.schemas = api.schemas ∧ settled.endpoints = api.endpoints ∧
      settled.translations = api.translations := by
  have reportable : IsReportable shelfDefinitions :=
    ⟨by unfold Check.InRange; decide +kernel, by decide +kernel⟩
  have noProblems : problems shelfDefinitions = .ok [] :=
    problems_eq_ok_iff.mpr ⟨reportable, by decide +kernel⟩
  have isApi : normalize {} shelfDefinitions = .ok (merge {} shelfDefinitions) :=
    normalize_eq_ok_iff.mpr ⟨noProblems, rfl⟩
  obtain ⟨-, settled, isSettled, endpoints, schemas, translations⟩ :=
    normalize_inDefinition isApi {} { source := "again.toml" }
  exact ⟨_, settled, isApi, by decide +kernel, by decide +kernel, isSettled, schemas, endpoints,
    translations⟩

end Api

end ApiWorkshop
