import ApiWorkshop.OpenApi.OperationId
import ApiWorkshop.Region.Marker
import ApiWorkshop.Text.Lines
import ApiWorkshop.Text.Quoted

/-!
# The routes module

One file of a project lists its endpoints, each on a line of its own inside a
region.  Everything that a definition says goes through quoting, so no
definition can add a line.
-/

namespace ApiWorkshop

namespace RoutesModule

/-- The argument for a request body, if there is one. -/
def bodyArgument (endpoint : Endpoint) : Text :=
  match endpoint.body with
  | some body => if body.schema.isEmpty then [] else ", body=" ++ Text.quoted body.schema
  | none => []

def line (endpoint : Endpoint) : Text :=
  "    Route(" ++ Text.quoted endpoint.method.name ++ ", " ++ Text.quoted endpoint.path ++ ", " ++
    Text.quoted (OpenApi.operationId endpoint) ++ ", " ++ Text.quoted endpoint.summary ++
    bodyArgument endpoint ++ "),"

def regionLines (endpoints : List Endpoint) : List Text :=
  ("ROUTES: list[Route] = [" : Text) :: (endpoints.map line ++ [("]" : Text)])

def linesBefore : List String :=
  ["\"\"\"HTTP route table.",
   "",
   "The region between the markers is regenerated from the API definitions by",
   "``specforge generate``; add handlers and helpers outside it.",
   "\"\"\"",
   "",
   "from __future__ import annotations",
   "",
   "from typing import NamedTuple, Optional",
   "",
   "",
   "class Route(NamedTuple):",
   "    method: str",
   "    path: str",
   "    operation_id: str",
   "    summary: str",
   "    body: Optional[str] = None",
   "",
   ""]

def linesAfter : List String :=
  ["",
   "",
   "def find_route(method: str, path: str) -> Optional[Route]:",
   "    \"\"\"Return the declared route for ``method`` and ``path`` (template form).\"\"\"",
   "    for route in ROUTES:",
   "        if route.method == method.upper() and route.path == path:",
   "            return route",
   "    return None"]

/-- The text of the module at a path. -/
def text (path : String) (endpoints : List Endpoint) : Text :=
  Text.ofLines linesBefore ++
    framed path "routes" (Text.unlines (regionLines endpoints)) ++
    Text.ofLines linesAfter

end RoutesModule

end ApiWorkshop
