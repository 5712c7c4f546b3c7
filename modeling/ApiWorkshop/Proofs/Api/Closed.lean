import ApiWorkshop.Proofs.Api.Accepted

/-!
# Closed APIs

In an accepted API every reference is to a schema of the API, no schema refers
to itself, and what is required is declared.  The checks look at the fields as
they are declared; these facts survive the completion of descriptions and the
move of the fields of an array schema onto its items.
-/

namespace ApiWorkshop

/-- A field that refers to allowed schemas only and requires only what it
declares, at any depth. -/
inductive Field.Closed (allowed : String → Prop) : Field → Prop
  | primitive (type : Primitive) (notes : Notes) : Closed allowed (.primitive type notes)
  | anyArray (notes : Notes) : Closed allowed (.anyArray notes)
  | array {item : Field} (notes : Notes) (isItem : Closed allowed item) :
      Closed allowed (.array item notes)
  | object {properties : List (String × Field)} {required : List String} (notes : Notes)
      (declared : ∀ name ∈ required, name ∈ properties.map Prod.fst)
      (areProperties : ∀ property ∈ properties, Closed allowed property.2) :
      Closed allowed (.object properties required notes)
  | reference {schema : String} (notes : Notes) (isAllowed : allowed schema) :
      Closed allowed (.reference schema notes)

/-- A schema that refers to allowed schemas only and requires only what it
declares. -/
def Schema.Closed (allowed : String → Prop) (schema : Schema) : Prop :=
  match schema.type with
  | .object =>
      (∀ name ∈ schema.required, name ∈ Entries.keys schema.fields) ∧
        ∀ field ∈ schema.fields, field.2.Closed allowed
  | .array => ∀ item ∈ schema.items, item.Closed allowed
  | .primitive _ => True

/-- A parameter that refers to an allowed schema if it refers to one. -/
def Parameter.Closed (allowed : String → Prop) (parameter : Parameter) : Prop :=
  ∀ schema, parameter.type = .reference schema → allowed schema

namespace Check

variable {known : List String} {owner source : String}

mutual

/-- A field without problems is closed under the known schemas but its owner. -/
theorem closed_of_checkField :
    ∀ {location : String} {field : Field}, checkField known owner source location field = [] →
      field.Closed fun schema => schema ∈ known ∧ schema ≠ owner
  | _, .primitive type notes, _ => .primitive type notes
  | _, .anyArray notes, _ => .anyArray notes
  | _, .array item notes, noProblem => by
      rw [checkField] at noProblem
      exact .array notes (closed_of_checkField (List.append_eq_nil_iff.mp noProblem).2)
  | _, .object properties required notes, noProblem => by
      rw [checkField] at noProblem
      obtain ⟨front, noFields⟩ := List.append_eq_nil_iff.mp noProblem
      obtain ⟨-, noRequired⟩ := List.append_eq_nil_iff.mp front
      exact .object notes (checkRequired_eq_nil_iff.mp noRequired) (closed_of_checkFields noFields)
  | _, .reference schema notes, noProblem => by
      rw [checkField] at noProblem
      have noReference := (List.append_eq_nil_iff.mp noProblem).2
      refine .reference notes ?_
      split at noReference
      · contradiction
      next apart =>
        refine ⟨?_, apart⟩
        simpa using noReference

theorem closed_of_checkFields :
    ∀ {location : String} {fields : List (String × Field)},
      checkFields known owner source location fields = [] →
        ∀ field ∈ fields, field.2.Closed fun schema => schema ∈ known ∧ schema ≠ owner
  | _, [], _ => by simp
  | _, (name, field) :: fields, noProblem => by
      rw [checkFields] at noProblem
      obtain ⟨noFault, restProblem⟩ := List.append_eq_nil_iff.mp noProblem
      refine List.forall_mem_cons.mpr ⟨?_, closed_of_checkFields restProblem⟩
      exact closed_of_checkField noFault

end

end Check

namespace Normalize

theorem completeFields_eq_map (fields : List (String × Field)) :
    completeFields fields = fields.map fun field => (field.1, completeField field.2) := by
  induction fields with
  | nil => rfl
  | cons field fields ih => rw [completeFields, ih, List.map_cons]

theorem map_fst_completeFields (fields : List (String × Field)) :
    (completeFields fields).map Prod.fst = fields.map Prod.fst := by
  simp [completeFields_eq_map]

/-- Completing descriptions keeps a field closed. -/
theorem closed_completeField {allowed : String → Prop} {field : Field}
    (closed : field.Closed allowed) : (completeField field).Closed allowed := by
  induction closed with
  | primitive type notes => exact .primitive type _
  | anyArray notes => exact .anyArray _
  | array notes _ ih => exact .array _ ih
  | object notes declared _ ih =>
      rw [completeField]
      refine .object _ (by rwa [map_fst_completeFields]) ?_
      rw [completeFields_eq_map]
      exact List.forall_mem_map.mpr ih
  | reference notes isAllowed => exact .reference _ isAllowed

/-- A schema without problems is closed when it is completed. -/
theorem closed_completeSchema {known : List String} {source : String} {schema : Schema}
    (noProblem : Check.checkSchema known source schema = []) :
    (completeSchema schema).Closed fun other => other ∈ known ∧ other ≠ schema.name := by
  have noShapeProblem := (List.append_eq_nil_iff.mp noProblem).2
  rw [Schema.Closed, completeSchema]
  cases isType : schema.type with
  | primitive type => simp
  | object =>
      simp only [isType] at noShapeProblem ⊢
      obtain ⟨noRequired, noFields⟩ := List.append_eq_nil_iff.mp noShapeProblem
      rw [Entries.keys, map_fst_completeFields, completeFields_eq_map]
      refine ⟨Check.checkRequired_eq_nil_iff.mp noRequired, List.forall_mem_map.mpr ?_⟩
      exact fun field member =>
        closed_completeField (Check.closed_of_checkFields noFields field member)
  | array =>
      simp only [isType, Check.checkArraySchema] at noShapeProblem ⊢
      cases noFields : schema.fields.isEmpty with
      | true =>
          simp only [noFields, if_true] at noShapeProblem ⊢
          have noItemProblem := (List.append_eq_nil_iff.mp noShapeProblem).2
          intro item isItem
          obtain ⟨declared, isDeclared, rfl⟩ := Option.map_eq_some_iff.mp isItem
          rw [isDeclared] at noItemProblem
          exact closed_completeField (Check.closed_of_checkField noItemProblem)
      | false =>
          simp only [noFields, Bool.false_eq_true, if_false] at noShapeProblem ⊢
          intro item isItem
          obtain rfl := Option.some.inj isItem
          have noItemProblem := (List.append_eq_nil_iff.mp noShapeProblem).2
          exact closed_completeField (Check.closed_of_checkField noItemProblem)

end Normalize

/-- An endpoint whose references are to known schemas and that has a parameter for
each placeholder of its path. -/
structure Endpoint.Closed (known : List String) (endpoint : Endpoint) : Prop where
  query : ∀ entry ∈ endpoint.query, entry.2.Closed (· ∈ known)
  pathParameters : ∀ entry ∈ endpoint.pathParameters, entry.2.Closed (· ∈ known)
  body : ∀ body ∈ endpoint.body, body.schema ∈ known
  distinct : (placeholders endpoint.path).Nodup
  placeholders : Entries.keys endpoint.pathParameters = placeholders endpoint.path

/-- An API all of whose references are to its schemas and whose schemas do not
refer to themselves. -/
structure Api.Closed (api : Api) : Prop where
  schemas : ∀ entry ∈ api.schemas,
    entry.2.Closed fun other => other ∈ Entries.keys api.schemas ∧ other ≠ entry.1
  endpoints : ∀ endpoint ∈ api.endpoints, endpoint.Closed (Entries.keys api.schemas)

/-! ## Allowing more schemas -/

theorem Field.Closed.imp {allowed weaker : String → Prop}
    (isWeaker : ∀ schema, allowed schema → weaker schema) {field : Field}
    (closed : field.Closed allowed) : field.Closed weaker := by
  induction closed with
  | primitive type notes => exact .primitive type notes
  | anyArray notes => exact .anyArray notes
  | array notes _ ih => exact .array notes ih
  | object notes declared _ ih => exact .object notes declared ih
  | reference notes isAllowed => exact .reference notes (isWeaker _ isAllowed)

theorem Schema.Closed.imp {allowed weaker : String → Prop}
    (isWeaker : ∀ schema, allowed schema → weaker schema) {schema : Schema}
    (closed : schema.Closed allowed) : schema.Closed weaker := by
  rw [Schema.Closed] at closed ⊢
  split
  next isObject =>
    rw [isObject] at closed
    exact ⟨closed.1, fun field member => (closed.2 field member).imp isWeaker⟩
  next isArray =>
    rw [isArray] at closed
    exact fun item isItem => (closed item isItem).imp isWeaker
  next => trivial

theorem Endpoint.Closed.mono {known more : List String} (subset : known ⊆ more)
    {endpoint : Endpoint} (closed : endpoint.Closed known) : endpoint.Closed more where
  query entry member schema isReference := subset (closed.query entry member schema isReference)
  pathParameters entry member schema isReference :=
    subset (closed.pathParameters entry member schema isReference)
  body body isBody := subset (closed.body body isBody)
  distinct := closed.distinct
  placeholders := closed.placeholders

namespace Normalize

theorem closed_placeholderParameter {known : List String} {source : String}
    {declared : Entries String Parameter} {name : String}
    (noProblem : ∀ parameter, Entries.get? name declared = some parameter →
      ∃ place, Check.checkParameter known source place parameter = []) :
    (placeholderParameter declared name).Closed (· ∈ known) := by
  intro schema isReference
  rw [placeholderParameter] at isReference
  split at isReference
  next parameter isDeclared =>
    obtain ⟨place, noFault⟩ := noProblem parameter isDeclared
    exact Check.schema_mem_of_checkParameter noFault isReference
  next => contradiction

/-- An endpoint without problems is closed when it is completed. -/
theorem closed_completeEndpoint {known : List String} {source location : String}
    {endpoint : Endpoint} (noProblem : Check.checkEndpoint known source location endpoint = []) :
    (completeEndpoint endpoint).Closed known := by
  rw [Check.checkEndpoint] at noProblem
  obtain ⟨front, -⟩ := List.append_eq_nil_iff.mp noProblem
  obtain ⟨bodyAndQuery, noPlaceholder⟩ := List.append_eq_nil_iff.mp front
  obtain ⟨noBody, noQuery⟩ := List.append_eq_nil_iff.mp bodyAndQuery
  obtain ⟨distinct, -, declared⟩ := Check.checkPlaceholders_eq_nil noPlaceholder
  refine ⟨?_, ?_, ?_, distinct, ?_⟩
  · refine List.forall_mem_map.mpr fun entry member schema isReference => ?_
    exact Check.schema_mem_of_checkParameter (List.flatMap_eq_nil_iff.mp noQuery entry member)
      isReference
  · refine List.forall_mem_map.mpr fun name member => ?_
    exact closed_placeholderParameter (declared name (List.mem_eraseDups.mp member))
  · intro body isBody
    obtain ⟨given, isGiven, rfl⟩ := Option.map_eq_some_iff.mp isBody
    rw [isGiven] at noBody
    exact Check.schema_mem_of_checkBody noBody
  · have mapped : Entries.keys (completeEndpoint endpoint).pathParameters =
        (placeholders endpoint.path).eraseDups := by
      simp [completeEndpoint, Entries.keys, Function.comp_def]
    rw [mapped, Entries.eraseDups_of_nodup distinct]
    rfl

end Normalize

/-! ## Accepted APIs -/

/-- Every schema that is declared somewhere is a schema of the API. -/
theorem schemaNames_subset_keys (heading : Heading) (definitions : List Definition) :
    Check.schemaNames definitions ⊆ Entries.keys (Api.merge heading definitions).schemas := by
  intro name member
  obtain ⟨definition, isDefinition, inKeys⟩ := List.mem_flatMap.mp member
  obtain ⟨entry, isEntry, rfl⟩ := List.mem_map.mp inKeys
  have isDeclared : (⟨definition.source, entry⟩ : Check.Declared (String × Schema)) ∈
      Check.declaredSchemas definitions :=
    List.mem_flatMap.mpr ⟨definition, isDefinition, List.mem_map.mpr ⟨entry, isEntry, rfl⟩⟩
  rcases Check.exists_first Prod.fst [] isDeclared with isSeen | ⟨first, inFirsts, sameName⟩
  · simp [Entries.keys] at isSeen
  · simp only [Api.merge, Entries.keys, List.map_map, List.mem_map]
    exact ⟨first, inFirsts, sameName⟩

/-- An accepted API is closed, if each definition has its schemas under their
names. -/
theorem closed_of_normalize {heading : Heading} {definitions : List Definition} {api : Api}
    (named : ∀ definition ∈ definitions, ∀ entry ∈ definition.schemas, entry.2.name = entry.1)
    (isApi : normalize heading definitions = .ok api) : api.Closed := by
  obtain ⟨rfl, noProblem⟩ := eq_merge_of_normalize isApi
  obtain ⟨front, noEndpoint⟩ := List.append_eq_nil_iff.mp noProblem
  obtain ⟨-, noSchema⟩ := List.append_eq_nil_iff.mp front
  have known := schemaNames_subset_keys heading definitions
  refine ⟨List.forall_mem_map.mpr fun declared member => ?_,
    List.forall_mem_map.mpr fun declared member => ?_⟩
  · have isDeclared := Check.mem_of_mem_firsts Prod.fst [] member
    obtain ⟨definition, isDefinition, isEntry⟩ := List.mem_flatMap.mp isDeclared
    obtain ⟨entry, inSchemas, rfl⟩ := List.mem_map.mp isEntry
    have closed := Normalize.closed_completeSchema
      (List.flatMap_eq_nil_iff.mp noSchema _ member)
    refine closed.imp fun other isAllowed => ⟨known isAllowed.1, ?_⟩
    exact named definition isDefinition entry inSchemas ▸ isAllowed.2
  · obtain ⟨location, noFault⟩ := Check.checkEndpoint_eq_nil noEndpoint declared member
    exact (Normalize.closed_completeEndpoint noFault).mono known

end ApiWorkshop
