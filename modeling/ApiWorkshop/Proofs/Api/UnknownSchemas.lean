import ApiWorkshop.Proofs.Api.Faultless
import Mathlib.Algebra.GroupWithZero.Nat

/-!
# Unknown schemas in endpoints

How many request bodies and parameters of unknown schemas are told, against how
many are declared.  The two differ by what is not looked into: the endpoints that
repeat another one, and the path parameters that have no placeholder.  Each of
these is told as a problem of its own.
-/

namespace ApiWorkshop

namespace ProblemKind

/-- Whether a problem is that of a body that names an unknown schema. -/
def isUnknownBody : ProblemKind → Bool
  | bodyUnknownSchema _ => true
  | _ => false

/-- Whether a problem is that of a parameter that names an unknown schema. -/
def isUnknownParameter : ProblemKind → Bool
  | parameterUnknownSchema _ => true
  | _ => false

end ProblemKind

/-! ## What is declared -/

/-- The body of an endpoint names a schema that is not known. -/
def Endpoint.hasUnknownBody (known : List String) (endpoint : Endpoint) : Bool :=
  endpoint.body.any fun body => !known.contains body.schema

/-- A parameter names a schema that is not known. -/
def Parameter.isUnknown (known : List String) (parameter : Parameter) : Bool :=
  match parameter.type with
  | .value _ => false
  | .reference schema => !known.contains schema

namespace Endpoint

variable (known : List String) (endpoint : Endpoint)

/-- How many parameters of an endpoint name a schema that is not known. -/
def unknownParameters : Nat :=
  (endpoint.query ++ endpoint.pathParameters).countP fun entry => entry.2.isUnknown known

/-- How many path parameters of an endpoint have no placeholder and name a schema
that is not known. -/
def unplacedParameters : Nat :=
  endpoint.pathParameters.countP fun entry =>
    !(placeholders endpoint.path).contains entry.1 && entry.2.isUnknown known

end Endpoint

namespace Check

open ProblemKind

variable {known : List String} {source location : String}

/-! ## Checks that tell of neither -/

/-- Whether a problem is that of choices or of a schema. -/
def tellsOfSchema : ProblemKind → Bool
  | .duplicateSchema .. | .requiredWithoutFields | .fieldsNotAllowed _ | .itemsNotObjects
  | .fieldsDeclaredTwice | .selfReference _ | .unknownSchema _ | .undeclaredRequired _
  | .noChoices | .fallbackNotChoice _ | .sampleNotChoice _ => true
  | _ => false

theorem tellsOfSchema_checkChoice {choices : List Value} {kind : Value → ProblemKind}
    (areOfSchema : ∀ value, tellsOfSchema (kind value) = true) {value : Option Value} :
    ∀ found ∈ checkChoice choices kind source location value, tellsOfSchema found.kind = true := by
  cases value with
  | none => simp [checkChoice]
  | some value =>
      rw [checkChoice]
      split
      · simp
      · simpa [problem] using areOfSchema value

theorem tellsOfSchema_checkChoices {choices : Option (List Value)}
    {fallback sample : Option Value} :
    ∀ found ∈ checkChoices choices fallback sample source location,
      tellsOfSchema found.kind = true := by
  match choices with
  | none => simp [checkChoices]
  | some [] => simp [checkChoices, problem, tellsOfSchema]
  | some (choice :: choices) =>
      exact List.forall_mem_append.mpr
        ⟨tellsOfSchema_checkChoice fun _ => rfl, tellsOfSchema_checkChoice fun _ => rfl⟩

theorem tellsOfSchema_checkRequired {required fields : List String} :
    ∀ found ∈ checkRequired required fields source location, tellsOfSchema found.kind = true :=
  List.forall_mem_map.mpr fun _ _ => rfl

mutual

theorem tellsOfSchema_checkField {owner : String} :
    ∀ {location : String} {field : Field},
      ∀ found ∈ checkField known owner source location field, tellsOfSchema found.kind = true
  | _, .primitive .. => tellsOfSchema_checkChoices
  | _, .anyArray _ => tellsOfSchema_checkChoices
  | _, .array item _ => by
      rw [checkField]
      exact List.forall_mem_append.mpr ⟨tellsOfSchema_checkChoices, tellsOfSchema_checkField⟩
  | _, .object properties _ _ => by
      rw [checkField]
      refine List.forall_mem_append.mpr ⟨List.forall_mem_append.mpr ?_, tellsOfSchema_checkFields⟩
      exact ⟨tellsOfSchema_checkChoices, tellsOfSchema_checkRequired⟩
  | _, .reference schema _ => by
      rw [checkField]
      refine List.forall_mem_append.mpr ⟨tellsOfSchema_checkChoices, ?_⟩
      split
      · simp [problem, tellsOfSchema]
      · split <;> simp [problem, tellsOfSchema]

theorem tellsOfSchema_checkFields {owner : String} :
    ∀ {location : String} {fields : List (String × Field)},
      ∀ found ∈ checkFields known owner source location fields, tellsOfSchema found.kind = true
  | _, [] => by simp [checkFields]
  | _, (_, field) :: fields => by
      rw [checkFields]
      exact List.forall_mem_append.mpr ⟨tellsOfSchema_checkField, tellsOfSchema_checkFields⟩

end

theorem tellsOfSchema_foldItem {schema : Schema} :
    ∀ kind ∈ (foldItem schema).2, tellsOfSchema kind = true := by
  rw [foldItem]
  split <;> simp [tellsOfSchema]

theorem tellsOfSchema_checkArraySchema {schema : Schema} :
    ∀ found ∈ checkArraySchema known source location schema, tellsOfSchema found.kind = true := by
  rw [checkArraySchema]
  split
  · refine List.forall_mem_append.mpr ⟨?_, ?_⟩
    · split <;> simp [problem, tellsOfSchema]
    · split
      · exact tellsOfSchema_checkField
      · simp
  · refine List.forall_mem_append.mpr ⟨List.forall_mem_map.mpr fun kind isFault => ?_,
      tellsOfSchema_checkField⟩
    exact tellsOfSchema_foldItem kind (Option.mem_toList.mp isFault)

/-- Checking a schema tells of nothing but choices and the schema. -/
theorem tellsOfSchema_checkSchema {schema : Schema} :
    ∀ found ∈ checkSchema known source schema, tellsOfSchema found.kind = true := by
  rw [checkSchema]
  refine List.forall_mem_append.mpr ⟨tellsOfSchema_checkChoices, ?_⟩
  split
  · exact tellsOfSchema_checkArraySchema
  · exact List.forall_mem_append.mpr ⟨tellsOfSchema_checkRequired, tellsOfSchema_checkFields⟩
  · split <;> simp [problem, tellsOfSchema]

/-! ## Counting problems -/

/-- How many of some problems are of a kind. -/
def tally (isKind : ProblemKind → Bool) (found : List Problem) : Nat :=
  found.countP fun problem => isKind problem.kind

section Tally

variable {isKind : ProblemKind → Bool}

@[simp]
theorem tally_nil : tally isKind [] = 0 :=
  rfl

@[simp]
theorem tally_append (first second : List Problem) :
    tally isKind (first ++ second) = tally isKind first + tally isKind second :=
  List.countP_append ..

@[simp]
theorem tally_cons (kind : ProblemKind) (source location : String) (found : List Problem) :
    tally isKind (problem kind source location :: found) =
      tally isKind found + if isKind kind then 1 else 0 :=
  List.countP_cons ..

theorem tally_eq_zero {found : List Problem}
    (areOthers : ∀ problem ∈ found, isKind problem.kind = false) : tally isKind found = 0 :=
  List.countP_eq_zero.mpr fun problem member => by simp [areOthers problem member]

theorem isUnknownBody_of_tellsOfSchema {kind : ProblemKind} (ofSchema : tellsOfSchema kind = true) :
    kind.isUnknownBody = false := by
  cases kind <;> first | rfl | contradiction

theorem isUnknownParameter_of_tellsOfSchema {kind : ProblemKind}
    (ofSchema : tellsOfSchema kind = true) : kind.isUnknownParameter = false := by
  cases kind <;> first | rfl | contradiction

end Tally

/-! ## What the checks of endpoints tell -/

theorem tally_body_checkParameter (parameter : Parameter) :
    tally isUnknownBody (checkParameter known source location parameter) = 0 := by
  refine tally_eq_zero (List.forall_mem_append.mpr ⟨fun found member => ?_, ?_⟩)
  · exact isUnknownBody_of_tellsOfSchema (tellsOfSchema_checkChoices found member)
  · cases parameter.type with
    | value type => simp
    | reference schema =>
        dsimp only
        split <;> simp [problem, isUnknownBody]

theorem tally_parameter_checkParameter (parameter : Parameter) :
    tally isUnknownParameter (checkParameter known source location parameter) =
      (parameter.isUnknown known).toNat := by
  have noChoice : tally isUnknownParameter (checkChoices parameter.notes.choices
      parameter.notes.fallback parameter.notes.sample source location) = 0 :=
    tally_eq_zero fun found member =>
      isUnknownParameter_of_tellsOfSchema (tellsOfSchema_checkChoices found member)
  rw [checkParameter, tally_append, noChoice, Nat.zero_add, Parameter.isUnknown]
  cases parameter.type with
  | value type => rfl
  | reference schema => by_cases isKnown : schema ∈ known <;> simp [isKnown, isUnknownParameter]

theorem tally_body_checkPlaceholders (parameters : Entries String Parameter)
    (seen names : List String) :
    tally isUnknownBody (checkPlaceholders known source location parameters seen names) = 0 := by
  induction names generalizing seen with
  | nil => rfl
  | cons name names ih =>
      rw [checkPlaceholders]
      split
      · simp [ih, isUnknownBody]
      · cases Entries.get? name parameters <;> simp [ih, tally_body_checkParameter]

/-- What a test counts is what two others count if each item passes just as many of
them. -/
theorem countP_eq_add {α : Type} {test first second : α → Bool} {items : List α}
    (splits : ∀ item ∈ items, (test item).toNat = (first item).toNat + (second item).toNat) :
    items.countP test = items.countP first + items.countP second := by
  induction items with
  | nil => rfl
  | cons item items ih =>
      obtain ⟨splitsHead, splitsRest⟩ := List.forall_mem_cons.mp splits
      have counted (decider : α → Bool) : (item :: items).countP decider =
          items.countP decider + (decider item).toNat := by
        rw [List.countP_cons]
        cases decider item <;> rfl
      rw [counted, counted, counted, ih splitsRest, splitsHead]
      omega

/-- Under distinct keys at most one entry has a key. -/
theorem countP_key {α : Type} {entries : Entries String α} (distinct : (Entries.keys entries).Nodup)
    (key : String) (test : α → Bool) :
    (entries.countP fun entry => (entry.1 == key) && test entry.2) =
      ((Entries.get? key entries).any test).toNat := by
  induction entries with
  | nil => rfl
  | cons entry entries ih =>
      obtain ⟨isNew, restDistinct⟩ := List.nodup_cons.mp distinct
      rw [List.countP_cons, ih restDistinct, Entries.get?]
      by_cases same : entry.1 = key
      · have noOther : Entries.get? key entries = none := Entries.get?_of_not_mem (same ▸ isNew)
        cases isPassed : test entry.2 <;> simp [same, noOther, isPassed]
      · simp [same]

/-- A parameter with a placeholder is looked into once, where the placeholder comes
first. -/
theorem tally_parameter_checkPlaceholders {parameters : Entries String Parameter}
    (distinctNames : (Entries.keys parameters).Nodup) (seen names : List String) :
    tally isUnknownParameter (checkPlaceholders known source location parameters seen names) =
      parameters.countP fun entry =>
        (names.contains entry.1 && !seen.contains entry.1) && entry.2.isUnknown known := by
  induction names generalizing seen with
  | nil => simp [checkPlaceholders]
  | cons name names ih =>
      rw [checkPlaceholders]
      split
      next isSeen =>
        rw [tally_cons, ih]
        refine List.countP_congr fun entry _ => ?_
        by_cases same : entry.1 = name
        · simp [same, List.contains_iff_mem.mp isSeen]
        · simp [same]
      next notSeen =>
        have isNew : name ∉ seen := by simpa using notSeen
        have counted : (parameters.countP fun entry =>
            ((name :: names).contains entry.1 && !seen.contains entry.1) &&
              entry.2.isUnknown known) =
            ((Entries.get? name parameters).any (Parameter.isUnknown known)).toNat +
              parameters.countP fun entry =>
                (names.contains entry.1 && !(name :: seen).contains entry.1) &&
                  entry.2.isUnknown known := by
          rw [← countP_key distinctNames]
          refine countP_eq_add fun entry _ => ?_
          by_cases same : entry.1 = name
          · simp [same, isNew]
          · simp [same]
        rw [tally_append, ih, counted]
        cases Entries.get? name parameters with
        | none => rfl
        | some parameter =>
            rw [tally_parameter_checkParameter]
            cases isPassed : parameter.isUnknown known <;> simp [isPassed]

/-- The problems of the parameters of a query. -/
theorem tally_flatMap_checkParameter {isKind : ProblemKind → Bool} (counts : Parameter → Bool)
    (known : List String) (source : String) (place : String → String)
    (each : ∀ location parameter, tally isKind (checkParameter known source location parameter) =
      (counts parameter).toNat) (query : Entries String Parameter) :
    tally isKind (query.flatMap fun entry =>
        checkParameter known source (place entry.1) entry.2) =
      query.countP fun entry => counts entry.2 := by
  induction query with
  | nil => rfl
  | cons entry query ih =>
      rw [List.flatMap_cons, tally_append, each, ih, List.countP_cons, Nat.add_comm]
      cases counts entry.2 <;> rfl

theorem tally_body_checkBody (endpoint : Endpoint) :
    tally isUnknownBody (checkBody known source location endpoint.body) =
      (endpoint.hasUnknownBody known).toNat := by
  rw [Endpoint.hasUnknownBody]
  cases endpoint.body with
  | none => rfl
  | some body => by_cases isKnown : body.schema ∈ known <;>
      simp [checkBody, isKnown, isUnknownBody]

theorem tally_parameter_checkBody (body : Option Body) :
    tally isUnknownParameter (checkBody known source location body) = 0 := by
  cases body with
  | none => rfl
  | some body =>
      rw [checkBody]
      split <;> simp [isUnknownParameter]

theorem tally_body_checkEndpoint (endpoint : Endpoint) :
    tally isUnknownBody (checkEndpoint known source location endpoint) =
      (endpoint.hasUnknownBody known).toNat := by
  have query := tally_flatMap_checkParameter (fun _ => false) known source
    (fun name => s!"{location} query.{name}") (fun _ => tally_body_checkParameter) endpoint.query
  have missing (names : List String) : tally isUnknownBody (names.map fun name =>
      problem (.missingPlaceholder name) source s!"{location} path_params.{name}") = 0 :=
    tally_eq_zero (List.forall_mem_map.mpr fun _ _ => rfl)
  simp [checkEndpoint, tally_body_checkBody, query, tally_body_checkPlaceholders, missing]

/-- The parameters of unknown schemas are told, the path parameters without a
placeholder apart. -/
theorem tally_parameter_checkEndpoint {endpoint : Endpoint}
    (distinctNames : (Entries.keys endpoint.pathParameters).Nodup) :
    tally isUnknownParameter (checkEndpoint known source location endpoint) +
      endpoint.unplacedParameters known = endpoint.unknownParameters known := by
  have query := tally_flatMap_checkParameter (Parameter.isUnknown known) known source
    (fun name => s!"{location} query.{name}") (fun _ => tally_parameter_checkParameter)
    endpoint.query
  have missing (names : List String) : tally isUnknownParameter (names.map fun name =>
      problem (.missingPlaceholder name) source s!"{location} path_params.{name}") = 0 :=
    tally_eq_zero (List.forall_mem_map.mpr fun _ _ => rfl)
  have placed : (endpoint.pathParameters.countP fun entry => entry.2.isUnknown known) =
      (endpoint.pathParameters.countP fun entry =>
        (placeholders endpoint.path).contains entry.1 && entry.2.isUnknown known) +
      endpoint.unplacedParameters known :=
    countP_eq_add fun entry _ => by
      cases (placeholders endpoint.path).contains entry.1 <;> simp
  simp only [checkEndpoint, tally_append, tally_parameter_checkBody, query, missing,
    tally_parameter_checkPlaceholders distinctNames, Endpoint.unknownParameters,
    List.countP_append, placed]
  simp
  omega

/-! ## What the checks of all endpoints tell -/

section Splitting

variable {α κ : Type} [DecidableEq κ]

/-- Every declaration either comes first or repeats another one, and counts once. -/
theorem perm_firsts_repeats (key : α → κ) (seen : Entries κ String)
    (declarations : List (Declared α)) :
    (firsts (splitRepeats key seen declarations) ++
      (repeats (splitRepeats key seen declarations)).map Prod.fst).Perm declarations := by
  induction declarations generalizing seen with
  | nil => exact .nil
  | cons declared declarations ih =>
      rw [splitRepeats]
      split
      next source _ =>
        exact List.perm_middle.trans ((ih seen).cons declared)
      next => exact (ih _).cons declared

end Splitting

/-- The endpoints of all files that come first with their method and path. -/
def firstEndpoints (definitions : List Definition) : List Endpoint :=
  (firsts (splitEndpoints definitions)).map fun declared => declared.value.2

/-- The endpoints of all files that repeat the method and path of another one. -/
def repeatedEndpoints (definitions : List Definition) : List Endpoint :=
  (repeats (splitEndpoints definitions)).map fun repeated => repeated.1.value.2

theorem perm_firstEndpoints (definitions : List Definition) :
    (firstEndpoints definitions ++ repeatedEndpoints definitions).Perm
      (definitions.flatMap Definition.endpoints) := by
  have areEndpoints : (declaredEndpoints definitions).map (fun declared => declared.value.2) =
      definitions.flatMap Definition.endpoints := by
    simp [declaredEndpoints, List.map_flatMap, Function.comp_def]
  rw [← areEndpoints]
  have split := (perm_firsts_repeats (fun entry : Nat × Endpoint =>
    (entry.2.method, entry.2.path)) [] (declaredEndpoints definitions)).map
      fun declared => declared.value.2
  rwa [List.map_append, List.map_map] at split

theorem tally_body_checkEndpoints
    (split : List (Declared (Nat × Endpoint) ⊕ (Declared (Nat × Endpoint) × String))) :
    tally isUnknownBody (checkEndpoints known split) =
      ((firsts split).map fun declared => declared.value.2).countP
        (Endpoint.hasUnknownBody known) := by
  induction split with
  | nil => rfl
  | cons head split ih =>
      cases head with
      | inl declared =>
          have isFirst : firsts (.inl declared :: split) = declared :: firsts split := rfl
          rw [checkEndpoints, tally_append, ih, tally_body_checkEndpoint, isFirst, List.map_cons,
            List.countP_cons, Nat.add_comm]
          cases declared.value.2.hasUnknownBody known <;> rfl
      | inr repeated =>
          rw [checkEndpoints, tally_cons, ih]
          rfl

theorem tally_parameter_checkEndpoints (known : List String)
    {split : List (Declared (Nat × Endpoint) ⊕ (Declared (Nat × Endpoint) × String))}
    (distinctNames : ∀ declared ∈ firsts split,
      (Entries.keys declared.value.2.pathParameters).Nodup) :
    tally isUnknownParameter (checkEndpoints known split) +
        (((firsts split).map fun declared => declared.value.2).map
          (Endpoint.unplacedParameters known)).sum =
      (((firsts split).map fun declared => declared.value.2).map
        (Endpoint.unknownParameters known)).sum := by
  induction split with
  | nil => rfl
  | cons head split ih =>
      cases head with
      | inl declared =>
          obtain ⟨source, index, endpoint⟩ := declared
          have isFirst : firsts (.inl ⟨source, index, endpoint⟩ :: split) =
              ⟨source, index, endpoint⟩ :: firsts split := rfl
          rw [isFirst] at distinctNames ⊢
          obtain ⟨headDistinct, restDistinct⟩ := List.forall_mem_cons.mp distinctNames
          have head : tally isUnknownParameter (checkEndpoint known source
                (endpointLocation index endpoint) endpoint) +
              endpoint.unplacedParameters known = endpoint.unknownParameters known :=
            tally_parameter_checkEndpoint headDistinct
          have rest := ih restDistinct
          simp only [checkEndpoints, tally_append, List.map_cons, List.sum_cons]
          omega
      | inr repeated =>
          rw [checkEndpoints, tally_cons]
          exact ih distinctNames

/-- Neither the schemas nor the translations tell of bodies and parameters. -/
theorem tally_of_problems {isKind : ProblemKind → Bool}
    (notSchema : ∀ kind, tellsOfSchema kind = true → isKind kind = false)
    (notSpan : ∀ fault, isKind (.invalidSpan fault) = false)
    (notTable : ∀ place first, isKind (.duplicateTranslations place first) = false)
    {definitions : List Definition} {found : List Problem}
    (areFound : problems definitions = .ok found) :
    tally isKind found = tally isKind
      (checkEndpoints (schemaNames definitions) (splitEndpoints definitions)) := by
  obtain ⟨-, rfl⟩ := problems_eq_ok_iff.mp areFound
  have names : tally isKind (checkSchemaNames definitions) = 0 :=
    tally_eq_zero (List.forall_mem_map.mpr fun _ _ => notSchema _ rfl)
  have schemas : tally isKind (checkSchemas definitions) = 0 :=
    tally_eq_zero (List.forall_mem_flatMap.mpr fun _ _ found member =>
      notSchema _ (tellsOfSchema_checkSchema found member))
  have tables : tally isKind ((splitTranslations definitions).flatMap translationProblems) = 0 := by
    refine tally_eq_zero (List.forall_mem_flatMap.mpr fun split _ => ?_)
    cases split with
    | inl declared =>
        intro found member
        obtain ⟨numbered, -, isProblem⟩ := List.mem_filterMap.mp member
        obtain ⟨fault, -, rfl⟩ := Option.map_eq_some_iff.mp isProblem
        exact notSpan fault
    | inr repeated => exact List.forall_mem_singleton.mpr (notTable _ _)
  rw [tally_append, checkStructure, tally_append, tally_append, names, schemas, tables]
  omega

end Check

open Check ProblemKind

/-- The problems of bodies and of parameters of unknown schemas, together with those of
endpoints that repeat another one and of path parameters without a placeholder, are
as many as there are declarations of such bodies and parameters. -/
theorem problems_tell_unknown_schemas {files : List SourceText} {definitions : List Definition}
    {found : List Problem} (areRead : Definition.readAll files = .ok definitions)
    (areFound : problems definitions = .ok found) :
    tally isUnknownBody found +
        (repeatedEndpoints definitions).countP
          (Endpoint.hasUnknownBody (schemaNames definitions)) =
      (definitions.flatMap Definition.endpoints).countP
        (Endpoint.hasUnknownBody (schemaNames definitions)) ∧
    tally isUnknownParameter found +
        ((repeatedEndpoints definitions).map
          (Endpoint.unknownParameters (schemaNames definitions))).sum +
        ((firstEndpoints definitions).map
          (Endpoint.unplacedParameters (schemaNames definitions))).sum =
      ((definitions.flatMap Definition.endpoints).map
        (Endpoint.unknownParameters (schemaNames definitions))).sum := by
  have areRegular := Definition.regular_of_readAll areRead
  have distinctNames : ∀ declared ∈ firsts (splitEndpoints definitions),
      (Entries.keys declared.value.2.pathParameters).Nodup := fun declared isFirst =>
    (forall_declaredEndpoints_iff fun endpoint =>
      (Entries.keys endpoint.pathParameters).Nodup).mpr
        (fun definition member endpoint isEndpoint =>
          ((areRegular definition member).endpoints endpoint isEndpoint).distinct)
        declared (mem_of_mem_firsts _ _ isFirst)
  have all := perm_firstEndpoints definitions
  constructor
  · rw [tally_of_problems (fun _ => isUnknownBody_of_tellsOfSchema) (fun _ => rfl)
      (fun _ _ => rfl) areFound, tally_body_checkEndpoints, ← all.countP_eq, List.countP_append]
    rfl
  · have told := tally_parameter_checkEndpoints (schemaNames definitions) distinctNames
    rw [tally_of_problems (fun _ => isUnknownParameter_of_tellsOfSchema) (fun _ => rfl)
      (fun _ _ => rfl) areFound, ← (all.map _).sum_nat, List.map_append, List.sum_append]
    rw [firstEndpoints]
    omega

/-- A file without schemas whose first endpoint names one in its body, its query and a
path parameter without a placeholder, and whose second endpoint repeats the first one
and names it in its body. -/
def ghostFile : SourceText :=
  ⟨"a.toml", "[[endpoints]]\npath = \"/\"\nmethod = \"GET\"\nbody = \"gone\"
query.x = \"gone\"\npath_params.old = \"gone\"
[[endpoints]]\npath = \"/\"\nmethod = \"GET\"\nbody = \"gone\"\n".toList⟩

/-- How many bodies and how many parameters of unknown schemas are told of files, and how
many are declared, if the files can be read and checked. -/
def tallies? (files : List SourceText) : Option ((Nat × Nat) × Nat × Nat) :=
  match Definition.readAll files with
  | .ok definitions =>
      match problems definitions with
      | .ok found =>
          some ((tally isUnknownBody found,
              (definitions.flatMap Definition.endpoints).countP
                (Endpoint.hasUnknownBody (schemaNames definitions))),
            tally isUnknownParameter found,
              ((definitions.flatMap Definition.endpoints).map
                (Endpoint.unknownParameters (schemaNames definitions))).sum)
      | .error _ => none
  | .error _ => none

theorem exists_of_tallies? {files : List SourceText} {bodies parameters : Nat × Nat}
    (counted : tallies? files = some (bodies, parameters)) :
    ∃ definitions found, Definition.readAll files = .ok definitions ∧
      problems definitions = .ok found ∧
      (tally isUnknownBody found = bodies.1 ∧
        (definitions.flatMap Definition.endpoints).countP
          (Endpoint.hasUnknownBody (schemaNames definitions)) = bodies.2) ∧
      tally isUnknownParameter found = parameters.1 ∧
        ((definitions.flatMap Definition.endpoints).map
          (Endpoint.unknownParameters (schemaNames definitions))).sum = parameters.2 := by
  rw [tallies?] at counted
  split at counted
  next definitions areRead =>
    split at counted
    next found areFound =>
      obtain ⟨rfl, rfl⟩ := Prod.mk.inj (Option.some.inj counted)
      exact ⟨definitions, found, areRead, areFound, ⟨rfl, rfl⟩, rfl, rfl⟩
    next => contradiction
  next => contradiction

theorem tallies?_ghostFile : tallies? [ghostFile] = some ((1, 2), 1, 2) := by
  decide +kernel

/-- One body and one parameter are told; the body of the second endpoint, which repeats
the first one, and the path parameter without a placeholder are not. -/
theorem problems_tell_unknown_schemas_of_ghostFile :
    ∃ definitions found, Definition.readAll [ghostFile] = .ok definitions ∧
      problems definitions = .ok found ∧
      (tally isUnknownBody found = 1 ∧ (repeatedEndpoints definitions).countP
        (Endpoint.hasUnknownBody (schemaNames definitions)) = 1) ∧
      tally isUnknownParameter found = 1 ∧ ((repeatedEndpoints definitions).map
        (Endpoint.unknownParameters (schemaNames definitions))).sum +
        ((firstEndpoints definitions).map
          (Endpoint.unplacedParameters (schemaNames definitions))).sum = 1 := by
  obtain ⟨definitions, found, areRead, areFound, ⟨bodiesTold, bodies⟩, parametersTold,
    parameters⟩ := exists_of_tallies? tallies?_ghostFile
  obtain ⟨bodiesAdd, parametersAdd⟩ := problems_tell_unknown_schemas areRead areFound
  refine ⟨definitions, found, areRead, areFound, ⟨bodiesTold, ?_⟩, parametersTold, ?_⟩
  · omega
  · omega

/-- Not every body and parameter of an unknown schema is told. -/
theorem tallies_ne_declared_of_ghostFile :
    ∃ definitions found, Definition.readAll [ghostFile] = .ok definitions ∧
      problems definitions = .ok found ∧
      tally isUnknownBody found ≠ (definitions.flatMap Definition.endpoints).countP
        (Endpoint.hasUnknownBody (schemaNames definitions)) ∧
      tally isUnknownParameter found ≠ ((definitions.flatMap Definition.endpoints).map
        (Endpoint.unknownParameters (schemaNames definitions))).sum := by
  obtain ⟨definitions, found, areRead, areFound, ⟨bodiesTold, bodies⟩, parametersTold,
    parameters⟩ := exists_of_tallies? tallies?_ghostFile
  refine ⟨definitions, found, areRead, areFound, ?_, ?_⟩
  · omega
  · omega

end ApiWorkshop
