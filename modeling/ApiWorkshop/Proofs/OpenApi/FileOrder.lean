import ApiWorkshop.Proofs.Api.Gathered
import ApiWorkshop.Proofs.OpenApi.Annotated

/-!
# The operations of a document in order

The endpoints of accepted definitions differ in method or path, so grouping their
operations by path replaces none of them.  Every declared endpoint has its own
operation, the paths stand in the order of their first endpoints, the operations on
a path in the order of its endpoints, and the parameters of an operation in the
order of the placeholders and then of the query.

What definitions pass and which declarations they have does not depend on the
order of the files.  So files in another order are accepted together as well and
declare the same things, and the document differs in the order of its keys alone.
-/

namespace ApiWorkshop

open Normalize

theorem Method.toLower_name (method : Method) : method.name.toLower = method.key := by
  cases method <;> decide +kernel

namespace OpenApi

/-- The operations of a document on a path by the keys of their methods. -/
def operationsOn (document : Value) (path : String) : Entries String Value :=
  ((Entries.get? path (paths document)).map Value.entries).getD []

/-- The parameters of an operation for what an endpoint declares: one for each
placeholder of the path, then those of the query. -/
def declaredParameters (endpoint : Endpoint) : List Value :=
  (placeholders endpoint.path).map (fun name =>
    parameterValue .path (name, (Entries.get? name endpoint.pathParameters).getD {})) ++
  endpoint.query.map (parameterValue .query)

/-- A document that has one operation for each of some declared endpoints, all in the
order of declaration, and no other. -/
structure Lists (document : Value) (declared : List Endpoint) : Prop where
  paths : Entries.keys (paths document) = (declared.map Endpoint.path).eraseDups
  operations : ∀ path, operationsOn document path =
    (declared.filter fun endpoint => endpoint.path = path).map fun endpoint =>
      (endpoint.method.name.toLower, operationValue (completeEndpoint endpoint))
  distinct : ∀ path, (Entries.keys (operationsOn document path)).Nodup
  parameters : ∀ endpoint ∈ declared, ∃ operation,
    (endpoint.method.name.toLower, operation) ∈ operationsOn document endpoint.path ∧
      parameters operation = declaredParameters endpoint
  placeholders : ∀ endpoint ∈ declared,
    Entries.keys endpoint.pathParameters ⊆ placeholders endpoint.path

/-! ## Operations by path -/

section Endpoints

variable {api : Api}

theorem keys_paths_document
    (distinct : (api.endpoints.map fun endpoint => (endpoint.method, endpoint.path)).Nodup) :
    Entries.keys (paths (document api)) = (api.endpoints.map Endpoint.path).eraseDups := by
  rw [paths_document, operations_eq_grouped distinct, Entries.keys, List.map_map]
  exact Entries.keys_grouped _ _ _ _

theorem operationsOn_document
    (distinct : (api.endpoints.map fun endpoint => (endpoint.method, endpoint.path)).Nodup)
    (path : String) :
    operationsOn (document api) path =
      Entries.group Endpoint.path (fun endpoint => endpoint.method.key) operationValue
        api.endpoints path := by
  rw [operationsOn, paths_document, Entries.get?_map, operations_eq_grouped distinct,
    ← Entries.getD_get?_grouped, Option.map_map]
  cases Entries.get? path (Entries.grouped Endpoint.path (fun endpoint => endpoint.method.key)
    operationValue api.endpoints) <;> rfl

theorem nodup_keys_operationsOn
    (distinct : (api.endpoints.map fun endpoint => (endpoint.method, endpoint.path)).Nodup)
    (path : String) : (Entries.keys (operationsOn (document api) path)).Nodup := by
  rw [operationsOn_document distinct]
  exact Entries.nodup_keys_group (nodup_path_key distinct) path

end Endpoints

/-! ## Parameters -/

theorem textEntry_getD_empty (key : String) (text : Option String) :
    textEntry key (some (text.getD "")) = textEntry key text := by
  cases text <;> rfl

/-- In a document an empty description is like none. -/
theorem parameterValue_completeParameter (place : ParameterPlace) (name : String)
    (parameter : Parameter) :
    parameterValue place (name, completeParameter parameter) =
      parameterValue place (name, parameter) := by
  simp only [parameterValue, completeParameter, completeNotes, textEntry_getD_empty]
  rfl

theorem parameterValue_placeholderParameter (declared : Entries String Parameter) (name : String) :
    parameterValue .path (name, placeholderParameter declared name) =
      parameterValue .path (name, (Entries.get? name declared).getD {}) := by
  rw [placeholderParameter]
  split
  next parameter isDeclared =>
    rw [isDeclared]
    exact parameterValue_completeParameter .path name { parameter with required := true }
  next notDeclared =>
    rw [notDeclared]
    rfl

theorem parameterValues_completeEndpoint {endpoint : Endpoint}
    (distinct : (placeholders endpoint.path).Nodup) :
    parameterValues (completeEndpoint endpoint) = declaredParameters endpoint := by
  rw [parameterValues, declaredParameters, completeEndpoint, Entries.eraseDups_of_nodup distinct,
    List.map_map, List.map_map]
  refine congrArg₂ (· ++ ·) ?_ ?_
  · exact List.map_congr_left fun name _ => parameterValue_placeholderParameter _ name
  · exact List.map_congr_left fun entry _ => parameterValue_completeParameter .query _ _

/-! ## Accepted definitions -/

section Accepted

variable {heading : Heading} {definitions : List Definition} {api : Api}

/-- The document of accepted definitions has the operations of all declared endpoints
in order, with all of their parameters in order. -/
theorem lists_document_of_normalize (isApi : normalize heading definitions = .ok api) :
    Lists (document api) (definitions.flatMap Definition.endpoints) := by
  have passed := (Api.normalize_eq_ok_iff_passed.mp isApi).1
  have endpoints := Api.endpoints_of_normalize isApi
  have distinct := Api.nodup_endpoints_of_normalize isApi
  have operations (path : String) : operationsOn (document api) path =
      ((definitions.flatMap Definition.endpoints).filter fun endpoint => endpoint.path = path).map
        fun endpoint =>
          (endpoint.method.name.toLower, operationValue (completeEndpoint endpoint)) := by
    rw [operationsOn_document distinct, endpoints, Entries.group, List.filter_map, List.map_map]
    simp only [Method.toLower_name]
    rfl
  refine ⟨?_, operations, nodup_keys_operationsOn distinct, ?_, ?_⟩
  · rw [keys_paths_document distinct, endpoints, List.map_map]
    rfl
  · intro endpoint isDeclared
    refine ⟨operationValue (completeEndpoint endpoint), ?_, ?_⟩
    · rw [operations]
      exact List.mem_map_of_mem (f := fun endpoint : Endpoint =>
        (endpoint.method.name.toLower, operationValue (completeEndpoint endpoint)))
        (List.mem_filter.mpr ⟨isDeclared, by simp⟩)
    · rw [parameters_operationValue,
        parameterValues_completeEndpoint (placeholders_of_passed passed endpoint isDeclared).1]
  · exact fun endpoint isDeclared => (placeholders_of_passed passed endpoint isDeclared).2

end Accepted

/-- Two definition files with endpoints on the same path. -/
def splitFiles : List SourceText :=
  [⟨"reading.toml", Text.ofLines [
    "[[endpoints]]", "path = \"/order/\x7bid\x7d\"", "method = \"GET\"",
    "query = \x7b part = \"string\" \x7d",
    "[[endpoints]]", "path = \"/orders\"", "method = \"GET\""]⟩,
    ⟨"writing.toml", Text.ofLines [
      "[[endpoints]]", "path = \"/order/\x7bid\x7d\"", "method = \"DELETE\""]⟩]

/-- The document of two files that share a path has the operations of both. -/
theorem lists_document_of_splitFiles :
    ∃ definitions api, Definition.readAll splitFiles = .ok definitions ∧
      normalize {} definitions = .ok api ∧
      Entries.keys (paths (document api)) = ["/order/\x7bid\x7d", "/orders"] ∧
      Entries.keys (operationsOn (document api) "/order/\x7bid\x7d") = ["get", "delete"] ∧
      Lists (document api) (definitions.flatMap Definition.endpoints) := by
  have evaluated : ((Definition.readAll splitFiles).toOption.any fun definitions =>
      (normalize {} definitions).toOption.any fun api =>
        decide (Entries.keys (paths (document api)) = ["/order/\x7bid\x7d", "/orders"]) &&
        decide (Entries.keys (operationsOn (document api) "/order/\x7bid\x7d") =
          ["get", "delete"])) = true := by decide +kernel
  obtain ⟨definitions, areRead, evaluated⟩ := exists_of_any_toOption evaluated
  obtain ⟨api, isApi, evaluated⟩ := exists_of_any_toOption evaluated
  simp only [Bool.and_eq_true, decide_eq_true_eq] at evaluated
  exact ⟨definitions, api, areRead, isApi, evaluated.1, evaluated.2,
    lists_document_of_normalize isApi⟩

end OpenApi

variable {definitions others : List Definition}

/-! ## Accepted definitions in another order -/

namespace Check

theorem perm_schemaNames (perm : definitions.Perm others) :
    (schemaNames definitions).Perm (schemaNames others) :=
  perm.flatMap_right _

/-- Definitions that pass do so in every order and where more schemas are known. -/
theorem Passed.perm {known other : List String} (passed : Passed known definitions)
    (perm : definitions.Perm others) (subset : known ⊆ other) : Passed other others where
  schemaNames := (perm_schemaNames perm).nodup_iff.mp passed.schemaNames
  operations := (perm.flatMap_right _).nodup_iff.mp passed.operations
  tables := (perm.flatMap_right _).nodup_iff.mp passed.tables
  schemas definition isDefinition entry isEntry source := checkSchema_eq_nil_mono subset source
    (passed.schemas definition (perm.mem_iff.mpr isDefinition) entry isEntry source)
  endpoints definition isDefinition endpoint isEndpoint source location :=
    checkEndpoint_eq_nil_mono subset source location
      (passed.endpoints definition (perm.mem_iff.mpr isDefinition) endpoint isEndpoint source
        location)
  durations definition isDefinition := passed.durations definition (perm.mem_iff.mpr isDefinition)

end Check

namespace Api

/-- The endpoints of an API by method and path. -/
def endpointTable (api : Api) : Entries (Method × String) Endpoint :=
  api.endpoints.map fun endpoint => ((endpoint.method, endpoint.path), endpoint)

/-- The rules of an API by model and field. -/
def ruleTable (api : Api) : Entries (String × String) (List Rule) :=
  api.translations.map fun translation => ((translation.model, translation.field), translation.rules)

/-- Two APIs with the same endpoints, schemas and rules, in whatever order. -/
structure SameDeclarations (api other : Api) : Prop where
  endpoints : ∀ key, Entries.get? key api.endpointTable = Entries.get? key other.endpointTable
  schemas : ∀ name, Entries.get? name api.schemas = Entries.get? name other.schemas
  rules : ∀ key, Entries.get? key api.ruleTable = Entries.get? key other.ruleTable

variable {heading : Heading} {api other : Api}

theorem exists_normalize_of_perm (perm : definitions.Perm others)
    (isApi : normalize heading definitions = .ok api) :
    ∃ other, normalize heading others = .ok other := by
  have passed := (normalize_eq_ok_iff_passed.mp isApi).1
  exact ⟨_, normalize_eq_ok_iff_passed.mpr
    ⟨passed.perm perm (Check.perm_schemaNames perm).subset, rfl⟩⟩

section Both

variable (perm : definitions.Perm others) (isApi : normalize heading definitions = .ok api)
  (isOther : normalize heading others = .ok other)

include perm isApi isOther

theorem perm_endpoints : api.endpoints.Perm other.endpoints := by
  rw [endpoints_of_normalize isApi, endpoints_of_normalize isOther]
  exact (perm.flatMap_right _).map _

theorem perm_schemas : api.schemas.Perm other.schemas := by
  rw [schemas_of_normalize isApi, schemas_of_normalize isOther]
  exact (perm.flatMap_right _).map _

theorem perm_translations : api.translations.Perm other.translations := by
  rw [translations_of_normalize isApi, translations_of_normalize isOther]
  exact perm.flatMap_right _

end Both

theorem sameDeclarations_of_perm (perm : definitions.Perm others)
    (isApi : normalize heading definitions = .ok api)
    (isOther : normalize heading others = .ok other) : api.SameDeclarations other where
  endpoints := by
    refine Entries.get?_eq_of_perm ((perm_endpoints perm isApi isOther).map _) ?_
    rw [Entries.keys, endpointTable, List.map_map]
    exact nodup_endpoints_of_normalize isApi
  schemas := Entries.get?_eq_of_perm (perm_schemas perm isApi isOther)
    (nodup_schemas_of_normalize isApi)
  rules := by
    refine Entries.get?_eq_of_perm ((perm_translations perm isApi isOther).map _) ?_
    rw [Entries.keys, ruleTable, List.map_map]
    exact nodup_translations_of_normalize isApi

end Api

/-! ## Documents -/

namespace OpenApi

/-- Two documents with the same operations and the same components up to the order of
their keys. -/
structure SameContract (first second : Value) : Prop where
  paths : (Entries.keys (paths first)).Perm (Entries.keys (paths second))
  operations : ∀ path, (operationsOn first path).Perm (operationsOn second path)
  components : (components first).Perm (components second)

variable {heading : Heading} {api other : Api}

theorem sameContract_of_perm (perm : definitions.Perm others)
    (isApi : normalize heading definitions = .ok api)
    (isOther : normalize heading others = .ok other) :
    SameContract (document api) (document other) := by
  have endpoints := Api.perm_endpoints perm isApi isOther
  have distinct := Api.nodup_endpoints_of_normalize isApi
  have othersDistinct := Api.nodup_endpoints_of_normalize isOther
  refine ⟨?_, fun path => ?_, ?_⟩
  · rw [keys_paths_document distinct, keys_paths_document othersDistinct]
    exact Entries.perm_eraseDups (endpoints.map _)
  · rw [operationsOn_document distinct, operationsOn_document othersDistinct]
    exact Entries.perm_group endpoints path
  · rw [components_document, components_document]
    exact (Api.perm_schemas perm isApi isOther).map _

end OpenApi

/-- Definitions are accepted in every order of the files or in none.  In every order they
declare the same things, and their documents have the same operations and components. -/
theorem normalize_perm (heading : Heading) (perm : definitions.Perm others) :
    ((∃ api, normalize heading definitions = .ok api) ↔
      ∃ other, normalize heading others = .ok other) ∧
    ∀ api other, normalize heading definitions = .ok api → normalize heading others = .ok other →
      api.SameDeclarations other ∧
        OpenApi.SameContract (OpenApi.document api) (OpenApi.document other) := by
  refine ⟨⟨?_, ?_⟩, fun api other isApi isOther =>
    ⟨Api.sameDeclarations_of_perm perm isApi isOther,
      OpenApi.sameContract_of_perm perm isApi isOther⟩⟩
  · rintro ⟨api, isApi⟩
    exact Api.exists_normalize_of_perm perm isApi
  · rintro ⟨other, isOther⟩
    exact Api.exists_normalize_of_perm perm.symm isOther

/-- Two definition files of which each has a schema that refers to one of the other file. -/
def crossedFiles : List SourceText :=
  [⟨"orders.toml", Text.ofLines ["[schemas.order]", "notes = \"note\""]⟩,
    ⟨"notes.toml", Text.ofLines ["[schemas.note]", "order = \"order\""]⟩]

/-- Two files that refer to each other's schemas can stand in either order. -/
theorem normalize_perm_of_crossedFiles :
    ∃ definitions api other, Definition.readAll crossedFiles = .ok definitions ∧
      normalize {} definitions = .ok api ∧ normalize {} definitions.reverse = .ok other ∧
      Entries.keys api.schemas = ["order", "note"] ∧
      Entries.keys other.schemas = ["note", "order"] ∧
      api.SameDeclarations other ∧
      OpenApi.SameContract (OpenApi.document api) (OpenApi.document other) := by
  have evaluated : ((Definition.readAll crossedFiles).toOption.any fun definitions =>
      (normalize {} definitions).toOption.any fun api =>
        (normalize {} definitions.reverse).toOption.any fun other =>
          decide (Entries.keys api.schemas = ["order", "note"]) &&
          decide (Entries.keys other.schemas = ["note", "order"])) = true := by decide +kernel
  obtain ⟨definitions, areRead, evaluated⟩ := exists_of_any_toOption evaluated
  obtain ⟨api, isApi, evaluated⟩ := exists_of_any_toOption evaluated
  obtain ⟨other, isOther, evaluated⟩ := exists_of_any_toOption evaluated
  simp only [Bool.and_eq_true, decide_eq_true_eq] at evaluated
  have same := (normalize_perm {} (List.reverse_perm definitions).symm).2 api other isApi isOther
  exact ⟨definitions, api, other, areRead, isApi, isOther, evaluated.1, evaluated.2, same⟩

end ApiWorkshop
