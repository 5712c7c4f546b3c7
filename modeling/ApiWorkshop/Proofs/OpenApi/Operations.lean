import ApiWorkshop.OpenApi.Document
import ApiWorkshop.Proofs.Entries
import ApiWorkshop.Proofs.OpenApi.SchemaValues

/-!
# The parts of a document

A document is plain data, so its component schemas, its operations and what an
operation has are found by their keys alone.  In the document of an API there is
one component for each schema of the API, and every operation is that of an
endpoint of the API on the same path.
-/

namespace ApiWorkshop

/-- The items of an array. -/
def Value.items : Value → List Value
  | .array items => items
  | _ => []

/-- The entries of a table. -/
def Value.entries : Value → Entries String Value
  | .table entries => entries
  | _ => []

namespace OpenApi

/-- The component schemas of a document by name. -/
def components (document : Value) : Entries String Value :=
  (((document.under? "components").bind (Value.under? "schemas")).map Value.entries).getD []

/-- The paths of a document. -/
def paths (document : Value) : Entries String Value :=
  ((document.under? "paths").map Value.entries).getD []

/-- The parameters of an operation. -/
def parameters (operation : Value) : List Value :=
  ((operation.under? "parameters").map Value.items).getD []

/-- The parameters of an operation that stand in its path. -/
def pathParameters (operation : Value) : List Value :=
  (parameters operation).filter fun parameter =>
    parameter.under? "in" = some (.string "path")

theorem get?_textEntry_of_ne {key other : String} (different : other ≠ key)
    (text : Option String) : Entries.get? key (textEntry other text) = none := by
  cases text with
  | none => rfl
  | some text =>
      dsimp only [textEntry]
      split
      · rfl
      · rw [Entries.get?, if_neg different]
        rfl

theorem parameters_operationValue (endpoint : Endpoint) :
    parameters (operationValue endpoint) = parameterValues endpoint := by
  have found : (operationValue endpoint).under? "parameters" =
      if (parameterValues endpoint).isEmpty then none
      else some (.array (parameterValues endpoint)) := by
    have noBody : Entries.get? "parameters"
        (endpoint.body.toList.map fun body => ("requestBody", bodyValue body)) = none := by
      cases endpoint.body <;> rfl
    simp [operationValue, Value.under?, Entries.get?_append, get?_textEntry_of_ne,
      apply_ite (Entries.get? "parameters"), Entries.get?, noBody]
  rw [parameters, found]
  cases parameterValues endpoint <;> rfl

theorem components_document (api : Api) :
    components (document api) = api.schemas.map fun entry => (entry.1, schemaValue entry.2) := by
  simp [components, document, Value.under?, Value.entries, Entries.get?_append, Entries.get?,
    apply_ite (Entries.get? "components")]

theorem paths_document (api : Api) :
    paths (document api) =
      (operations api.endpoints).map fun entry => (entry.1, .table entry.2) := by
  simp [paths, document, Value.under?, Value.entries, Entries.get?_append, Entries.get?,
    apply_ite (Entries.get? "paths")]

/-- A table in which every operation is that of one of the endpoints, on its path. -/
def ComesFrom (endpoints : List Endpoint) (table : Entries String (Entries String Value)) :
    Prop :=
  ∀ entry ∈ table, ∀ found ∈ entry.2,
    ∃ endpoint ∈ endpoints, endpoint.path = entry.1 ∧ operationValue endpoint = found.2

theorem comesFrom_put {endpoints : List Endpoint} {table : Entries String (Entries String Value)}
    (comesFrom : ComesFrom endpoints table) {endpoint : Endpoint}
    (isEndpoint : endpoint ∈ endpoints) :
    ComesFrom endpoints (Entries.put endpoint.path
      (Entries.put endpoint.method.key (operationValue endpoint)
        ((Entries.get? endpoint.path table).getD [])) table) := by
  intro entry isEntry found isFound
  rcases Entries.mem_put isEntry with rfl | inTable
  · rcases Entries.mem_put isFound with rfl | inMethods
    · exact ⟨endpoint, isEndpoint, rfl, rfl⟩
    · cases isKnown : Entries.get? endpoint.path table with
      | none => simp [isKnown] at inMethods
      | some methods =>
          rw [isKnown] at inMethods
          exact comesFrom _ (Entries.mem_of_get? isKnown) found inMethods
  · exact comesFrom entry inTable found isFound

theorem comesFrom_operations (endpoints : List Endpoint) :
    ComesFrom endpoints (operations endpoints) := by
  have fromNone : ComesFrom endpoints [] := by simp [ComesFrom]
  exact List.foldlRecOn endpoints _ fromNone fun table comesFrom endpoint isEndpoint =>
    comesFrom_put comesFrom isEndpoint

end OpenApi

end ApiWorkshop
