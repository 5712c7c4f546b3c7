import ApiWorkshop.Api.Model
import ApiWorkshop.Time.Duration
import ApiWorkshop.Value.Literal

/-!
# Problems of definitions

A problem is a rule that definitions with the right structure break.  Checking
never stops at a problem; all of them are told at once, each with the file and
the section it was found in.
-/

namespace ApiWorkshop

/-- A rule that is broken. -/
inductive ProblemKind where
  | duplicateSchema (name source : String)
  | duplicateEndpoint (label source : String)
  | duplicateTranslations (location source : String)
  | requiredWithoutFields
  | fieldsNotAllowed (type : JsonType)
  | itemsNotObjects
  | fieldsDeclaredTwice
  | selfReference (schema : String)
  | unknownSchema (schema : String)
  | undeclaredRequired (field : String)
  | noChoices
  | fallbackNotChoice (fallback : Value)
  | sampleNotChoice (sample : Value)
  | bodyUnknownSchema (schema : String)
  | repeatedPlaceholder (parameter : String)
  | missingPlaceholder (parameter : String)
  | parameterUnknownSchema (schema : String)
  | invalidSpan (error : DurationError)
  deriving DecidableEq, Repr

namespace ProblemKind

/-- The literal of a value as a string. -/
def literalText (value : Value) : String :=
  String.ofList value.literal

def message : ProblemKind → String
  | duplicateSchema name source => s!"schema '{name}' is already declared in {source}"
  | duplicateEndpoint label source => s!"{label} is already declared in {source}"
  | duplicateTranslations location source =>
      s!"translations for '{location}' are already declared in {source}"
  | requiredWithoutFields => "'required' needs fields to refer to"
  | fieldsNotAllowed type =>
      s!"fields are only allowed on object and array schemas, not '{type.name}'"
  | itemsNotObjects => "array schema declares fields but its items are not objects"
  | fieldsDeclaredTwice => "array schema declares fields both inline and on its items"
  | selfReference schema => s!"schema '{schema}' references itself"
  | unknownSchema schema => s!"unknown schema '{schema}'"
  | undeclaredRequired field => s!"required field '{field}' is not declared"
  | noChoices => "'enum' must not be empty"
  | fallbackNotChoice fallback =>
      s!"default {literalText fallback} is not one of the enum values"
  | sampleNotChoice sample =>
      s!"example {literalText sample} is not one of the enum values"
  | bodyUnknownSchema schema => s!"request body references unknown schema '{schema}'"
  | repeatedPlaceholder parameter =>
      s!"path parameter '{parameter}' appears twice in the path"
  | missingPlaceholder parameter =>
      "path parameter '" ++ parameter ++ "' has no \x7b" ++ parameter ++
        "\x7d placeholder in the path"
  | parameterUnknownSchema schema => s!"parameter references unknown schema '{schema}'"
  | invalidSpan error => s!"invalid span duration: {error.message}"

/-- Whether the wording of a broken rule can be written: the value in it has no
integer with too many digits. -/
def isWritable : ProblemKind → Bool
  | fallbackNotChoice fallback => fallback.isWritable
  | sampleNotChoice sample => sample.isWritable
  | _ => true

end ProblemKind

/-- A broken rule with the file and the section where it was found. -/
structure Problem where
  kind : ProblemKind
  source : String
  location : String
  deriving DecidableEq, Repr

def Problem.message (problem : Problem) : String :=
  if problem.location.isEmpty then
    s!"{problem.source}: {problem.kind.message}"
  else
    s!"{problem.source} [{problem.location}]: {problem.kind.message}"

/-- Why definitions cannot be checked to the end. -/
inductive CheckFailure where
  /-- A duration is too long. -/
  | durationTooLong
  /-- The wording of a problem has an integer with too many digits. -/
  | longInteger
  deriving DecidableEq, Repr

/-- The summary of a list of problems. -/
def problemSummary (problems : List Problem) : String :=
  let noun := if problems.length = 1 then "error" else "errors"
  s!"API definition has {problems.length} validation {noun}"

end ApiWorkshop
