import ApiWorkshop.Api.Model
import ApiWorkshop.Text.Words

/-!
# Operation identifiers

The identifier of an operation is its method followed by the segments of its
path in snake case.  A segment that is one placeholder becomes `by_` and the
name of the placeholder.
-/

namespace ApiWorkshop

namespace OpenApi

def isBrace (c : Char) : Bool := c = '\x7b' || c = '\x7d'

/-- The name in a segment that is one placeholder.  A line feed after the
closing brace does not count. -/
def placeholderName? (segment : Text) : Option Text :=
  match segment with
  | '\x7b' :: rest =>
      let name := rest.takeWhile (!isBrace ·)
      if name.isEmpty then
        none
      else
        match rest.dropWhile (!isBrace ·) with
        | ['\x7d'] => some name
        | ['\x7d', '\n'] => some name
        | _ => none
  | _ => none

/-- The word of a segment in an identifier, if it has one. -/
def segmentWord? (segment : Text) : Option Text :=
  if segment.isEmpty then
    none
  else
    match placeholderName? segment with
    | some name => some ("by_" ++ Text.underscored name)
    | none =>
        let word := Text.underscored segment
        if word.isEmpty then none else some word

/-- The identifier of a method on a path. -/
def operationIdOf (method : Method) (path : String) : String :=
  String.ofList (List.intercalate ['_']
    (method.key.toList :: (Text.pieces '/' path.toList).filterMap segmentWord?))

def operationId (endpoint : Endpoint) : String :=
  operationIdOf endpoint.method endpoint.path

end OpenApi

end ApiWorkshop
