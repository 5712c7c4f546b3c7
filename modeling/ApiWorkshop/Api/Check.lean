import ApiWorkshop.Api.Placeholder
import ApiWorkshop.Api.Problem
import ApiWorkshop.Translation.Matcher
import ApiWorkshop.Value.Equality

/-!
# Checking definitions

The checks are independent of each other and each contributes its problems to
one list: first the schemas declared twice, then the problems of schemas, of
endpoints and of translations, each in the order of declaration over all files.
A second declaration of the same thing is a problem and is not looked into.
-/

namespace ApiWorkshop

namespace Check

/-- A declaration with the file it stands in. -/
structure Declared (α : Type) where
  source : String
  value : α
  deriving DecidableEq, Repr

/-- Declarations split by a key into those that come first and those that
repeat a key, the latter with the file of the first one. -/
def splitRepeats {α κ : Type} [DecidableEq κ] (key : α → κ) (seen : Entries κ String) :
    List (Declared α) → List (Declared α ⊕ (Declared α × String))
  | [] => []
  | declared :: rest =>
      match Entries.get? (key declared.value) seen with
      | some source => .inr (declared, source) :: splitRepeats key seen rest
      | none =>
          .inl declared ::
            splitRepeats key (seen ++ [(key declared.value, declared.source)]) rest

def firsts {α : Type} (split : List (Declared α ⊕ (Declared α × String))) :
    List (Declared α) :=
  split.filterMap fun
    | .inl declared => some declared
    | .inr _ => none

/-- The declarations that repeat another one, with the file of that one. -/
def repeats {α : Type} (split : List (Declared α ⊕ (Declared α × String))) :
    List (Declared α × String) :=
  split.filterMap fun
    | .inl _ => none
    | .inr repeated => some repeated

def declaredSchemas (definitions : List Definition) : List (Declared (String × Schema)) :=
  definitions.flatMap fun definition =>
    definition.schemas.map fun entry => ⟨definition.source, entry⟩

/-- The endpoints of all files, each with its position in its file. -/
def declaredEndpoints (definitions : List Definition) : List (Declared (Nat × Endpoint)) :=
  definitions.flatMap fun definition =>
    definition.endpoints.zipIdx.map fun (endpoint, index) =>
      ⟨definition.source, (index, endpoint)⟩

def declaredTranslations (definitions : List Definition) : List (Declared Translation) :=
  definitions.flatMap fun definition =>
    definition.translations.map fun translation => ⟨definition.source, translation⟩

/-- The schemas split into first declarations and repeats. -/
def splitSchemas (definitions : List Definition) :=
  splitRepeats Prod.fst [] (declaredSchemas definitions)

/-- The endpoints split into first declarations and repeats; two endpoints are
the same when method and path are. -/
def splitEndpoints (definitions : List Definition) :=
  splitRepeats (fun entry : Nat × Endpoint => (entry.2.method, entry.2.path)) []
    (declaredEndpoints definitions)

/-- The translations split into first declarations and repeats. -/
def splitTranslations (definitions : List Definition) :=
  splitRepeats (fun translation : Translation => (translation.model, translation.field)) []
    (declaredTranslations definitions)

/-- The names of the schemas that are declared in some file. -/
def schemaNames (definitions : List Definition) : List String :=
  definitions.flatMap fun definition => Entries.keys definition.schemas

def problem (kind : ProblemKind) (source location : String) : Problem :=
  ⟨kind, source, location⟩

/-! ## Schemas -/

def isArray : Value → Bool
  | .array _ => true
  | _ => false

/-- Problems with a value that has to be one of the choices. -/
def checkChoice (choices : List Value) (kind : Value → ProblemKind) (source location : String) :
    Option Value → List Problem
  | none => []
  | some value =>
      if value.isMember choices then [] else [problem (kind value) source location]

/-- Problems with a list of choices and the values that have to be among them.
A sample that is an array is not looked at. -/
def checkChoices (choices : Option (List Value)) (fallback sample : Option Value)
    (source location : String) : List Problem :=
  match choices with
  | none => []
  | some [] => [problem .noChoices source s!"{location}.enum"]
  | some choices =>
      checkChoice choices .fallbackNotChoice source s!"{location}.default" fallback ++
        checkChoice choices .sampleNotChoice source s!"{location}.example"
          (sample.filter (!isArray ·))

/-- Problems with names that have to be among the fields. -/
def checkRequired (required fields : List String) (source location : String) : List Problem :=
  (required.filter (!fields.contains ·)).map fun name =>
    problem (.undeclaredRequired name) source location

mutual

/-- Problems of a field of a schema and of everything inside it. -/
def checkField (known : List String) (owner source location : String) :
    Field → List Problem
  | .primitive _ notes =>
      checkChoices notes.choices notes.fallback notes.sample source location
  | .anyArray notes =>
      checkChoices notes.choices notes.fallback notes.sample source location
  | .array item notes =>
      checkChoices notes.choices notes.fallback notes.sample source location ++
        checkField known owner source s!"{location}.items" item
  | .object properties required notes =>
      checkChoices notes.choices notes.fallback notes.sample source location ++
        checkRequired required (properties.map Prod.fst) source s!"{location}.required" ++
          checkFields known owner source location properties
  | .reference schema notes =>
      checkChoices notes.choices notes.fallback notes.sample source location ++
        if schema = owner then
          [problem (.selfReference owner) source location]
        else if known.contains schema then
          []
        else
          [problem (.unknownSchema schema) source location]

/-- Problems of named fields, each below a location. -/
def checkFields (known : List String) (owner source location : String) :
    List (String × Field) → List Problem
  | [] => []
  | (name, field) :: fields =>
      checkField known owner source s!"{location}.{name}" field ++
        checkFields known owner source location fields

end

/-- The item of an array schema with the fields of the schema moved onto it. -/
def foldedItem (schema : Schema) : Field :=
  .object schema.fields schema.required ((schema.items.map Field.notes).getD {})

/-- The item of an array schema that declares fields and the problem with it,
if there is one.  The fields can only be moved onto an object without fields of
its own. -/
def foldItem (schema : Schema) : Field × Option ProblemKind :=
  match schema.items with
  | none => (foldedItem schema, none)
  | some (.object [] _ _) => (foldedItem schema, none)
  | some (.object properties required notes) =>
      (.object properties required notes, some .fieldsDeclaredTwice)
  | some other => (other, some .itemsNotObjects)

/-- Problems of an array schema besides its choices. -/
def checkArraySchema (known : List String) (source location : String) (schema : Schema) :
    List Problem :=
  if schema.fields.isEmpty then
    (if schema.required.isEmpty then [] else
      [problem .requiredWithoutFields source s!"{location}.required"]) ++
      (match schema.items with
        | some item => checkField known schema.name source s!"{location}.items" item
        | none => [])
  else
    let (item, fault) := foldItem schema
    (fault.toList.map fun kind => problem kind source s!"{location}.items") ++
      checkField known schema.name source s!"{location}.items" item

def checkSchema (known : List String) (source : String) (schema : Schema) : List Problem :=
  let location := s!"schemas.{schema.name}"
  checkChoices schema.choices none schema.sample source location ++
    match schema.type with
    | .array => checkArraySchema known source location schema
    | .object =>
        checkRequired schema.required (Entries.keys schema.fields) source
            s!"{location}.required" ++
          checkFields known schema.name source location schema.fields
    | .primitive type =>
        if schema.fields.isEmpty && schema.required.isEmpty then
          []
        else
          [problem (.fieldsNotAllowed (.primitive type)) source location]

/-! ## Endpoints -/

def checkParameter (known : List String) (source location : String) (parameter : Parameter) :
    List Problem :=
  let notes := parameter.notes
  checkChoices notes.choices notes.fallback notes.sample source location ++
    match parameter.type with
    | .value _ => []
    | .reference schema =>
        if known.contains schema then
          []
        else
          [problem (.parameterUnknownSchema schema) source location]

/-- Problems of the placeholders of a path, given those that came before, and
of the parameters declared for them. -/
def checkPlaceholders (known : List String) (source location : String)
    (parameters : Entries String Parameter) (seen : List String) :
    List String → List Problem
  | [] => []
  | name :: names =>
      if seen.contains name then
        problem (.repeatedPlaceholder name) source location ::
          checkPlaceholders known source location parameters seen names
      else
        (match Entries.get? name parameters with
          | some parameter =>
              checkParameter known source s!"{location} path_params.{name}" parameter
          | none => []) ++
          checkPlaceholders known source location parameters (name :: seen) names

def checkBody (known : List String) (source location : String) : Option Body → List Problem
  | none => []
  | some body =>
      if known.contains body.schema then
        []
      else
        [problem (.bodyUnknownSchema body.schema) source location]

def checkEndpoint (known : List String) (source location : String) (endpoint : Endpoint) :
    List Problem :=
  let names := placeholders endpoint.path
  checkBody known source location endpoint.body ++
    endpoint.query.flatMap (fun (name, parameter) =>
      checkParameter known source s!"{location} query.{name}" parameter) ++
    checkPlaceholders known source location endpoint.pathParameters [] names ++
    ((Entries.keys endpoint.pathParameters).filter (!names.contains ·)).map fun name =>
      problem (.missingPlaceholder name) source s!"{location} path_params.{name}"

def endpointLocation (index : Nat) (endpoint : Endpoint) : String :=
  s!"endpoints[{index}] {endpoint.label}"

/-- Problems of endpoints of which some repeat others. -/
def checkEndpoints (known : List String) :
    List (Declared (Nat × Endpoint) ⊕ (Declared (Nat × Endpoint) × String)) → List Problem
  | [] => []
  | .inl ⟨source, (index, endpoint)⟩ :: rest =>
      checkEndpoint known source (endpointLocation index endpoint) endpoint ++
        checkEndpoints known rest
  | .inr (⟨source, (index, endpoint)⟩, first) :: rest =>
      problem (.duplicateEndpoint endpoint.label first) source
          (endpointLocation index endpoint) ::
        checkEndpoints known rest

/-! ## Translations -/

/-- Problems of rules, numbered from `index` on.  A duration that is well formed
but too long is no problem that can be told; it ends the check. -/
def checkRules (source location : String) : Nat → List Rule → Except CheckFailure (List Problem)
  | _, [] => .ok []
  | index, rule :: rules =>
      match Matcher.parse rule.matcher with
      | .error .tooLong => .error .durationTooLong
      | .error error => do
          let rest ← checkRules source location (index + 1) rules
          .ok (problem (.invalidSpan error) source s!"{location}.translations[{index}]" :: rest)
      | .ok _ => checkRules source location (index + 1) rules

def translationLocation (translation : Translation) : String :=
  s!"models.{translation.model}.{translation.field}"

/-- Problems of translations of which some repeat others. -/
def checkTranslations :
    List (Declared Translation ⊕ (Declared Translation × String)) →
      Except CheckFailure (List Problem)
  | [] => .ok []
  | .inl ⟨source, translation⟩ :: rest => do
      let first ← checkRules source (translationLocation translation) 0 translation.rules
      let others ← checkTranslations rest
      .ok (first ++ others)
  | .inr (⟨source, translation⟩, first) :: rest => do
      let location := translationLocation translation
      let others ← checkTranslations rest
      .ok (problem (.duplicateTranslations location first) source location :: others)

/-! ## Definitions -/

/-- Problems of schemas that are declared more than once. -/
def checkSchemaNames (definitions : List Definition) : List Problem :=
  (repeats (splitSchemas definitions)).map fun (⟨source, (name, _)⟩, first) =>
    problem (.duplicateSchema name first) source s!"schemas.{name}"

/-- Problems of the schemas that are declared first under their name. -/
def checkSchemas (definitions : List Definition) : List Problem :=
  (firsts (splitSchemas definitions)).flatMap fun ⟨source, (_, schema)⟩ =>
    checkSchema (schemaNames definitions) source schema

def checkStructure (definitions : List Definition) : List Problem :=
  checkSchemaNames definitions ++ checkSchemas definitions ++
    checkEndpoints (schemaNames definitions) (splitEndpoints definitions)

end Check

/-- All problems of a list of definitions.  The wording of each problem has to be
written before the translations are looked at. -/
def problems (definitions : List Definition) : Except CheckFailure (List Problem) :=
  let found := Check.checkStructure definitions
  if found.all (·.kind.isWritable) then do
    let translations ← Check.checkTranslations (Check.splitTranslations definitions)
    .ok (found ++ translations)
  else
    .error .longInteger

end ApiWorkshop
