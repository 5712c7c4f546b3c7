import ApiWorkshop.Api.Model
import ApiWorkshop.Region.Marker
import ApiWorkshop.Settings.Project
import ApiWorkshop.Text.Lines
import ApiWorkshop.Text.Quoted
import ApiWorkshop.Text.Words

/-!
# Files around the modules

Besides its modules a project has a page that introduces it, with a table of
the endpoints in a region, a manifest, a list of files to ignore and the file
that makes its package.
-/

namespace ApiWorkshop

namespace Overview

/-- The row of an endpoint in the table of the page. -/
def endpointRow (endpoint : Endpoint) : Text :=
  "| `" ++ endpoint.method.name.toList ++ "` | `" ++ endpoint.path.toList ++ "` | " ++
    endpoint.summary.toList ++ " |"

/-- The lines of the table before the first endpoint. -/
def tableHead : List String :=
  ["| Method | Path | Summary |", "| --- | --- | --- |"]

/-- The body of the region of the page. -/
def endpointTable (endpoints : List Endpoint) : Text :=
  Text.ofLines tableHead ++ Text.unlines (endpoints.map endpointRow)

/-- The lines of the page that say where the definitions and the documents of a
project are. -/
def placeLines (settings : ProjectSettings) : List LooseText :=
  ["API definitions live in `" ++ settings.apiDirectory ++ "/`. After editing them, run:",
    "",
    "```sh",
    "specforge generate",
    "```",
    "",
    "This rewrites `" ++ settings.openapiOutput ++ "` and `" ++
      settings.translationsOutput ++ "`",
    "and refreshes the marked regions of the sources below. Everything outside a",
    "`specforge:begin`/`specforge:end` pair is yours to edit.",
    "",
    "## Endpoints",
    ""]

/-- The lines of the page of a project before its region. -/
def introductionLines (settings : ProjectSettings) (description : String) : List LooseText :=
  ["# " ++ settings.name, ""] ++
    (if description.isEmpty then [] else [LooseText.ofString description, ""]) ++
    placeLines settings

/-- The page of a project before its region. -/
def introduction (settings : ProjectSettings) (description : String) : LooseText :=
  LooseText.unlines (introductionLines settings description)

def page (path : String) (settings : ProjectSettings) (api : Api) : LooseText :=
  introduction settings api.description ++
    framed path "endpoints" (endpointTable api.endpoints)

def ignoredLines : List String :=
  ["__pycache__/",
   "*.py[cod]",
   "*.egg-info/",
   ".venv/",
   ".pytest_cache/",
   "dist/",
   "build/"]

def ignored : Text :=
  Text.ofLines ignoredLines

/-- The name of a project in its manifest. -/
def distributionName (settings : ProjectSettings) : Text :=
  (Text.snakeCase settings.name.shown).map fun c => if c = '_' then '-' else c

def manifestLines (settings : ProjectSettings) : List LooseText :=
  ["[build-system]",
   "requires = [\"hatchling\"]",
   "build-backend = \"hatchling.build\"",
   "",
   "[project]",
   "name = " ++ Text.quoted (distributionName settings),
   "version = " ++ settings.version.quoted,
   "requires-python = \">=3.11\"",
   "dependencies = []",
   "",
   "[tool.hatch.build.targets.wheel]",
   "packages = [\"src/" ++ settings.packageName ++ "\"]"]

def manifest (settings : ProjectSettings) : LooseText :=
  LooseText.unlines (manifestLines settings)

def packageLines (settings : ProjectSettings) : List LooseText :=
  ["\"\"\"" ++ settings.name ++ ".\"\"\"",
   "",
   "__version__ = " ++ settings.version.quoted]

/-- The file that makes the package of a project. -/
def packageFile (settings : ProjectSettings) : LooseText :=
  LooseText.unlines (packageLines settings)

end Overview

end ApiWorkshop
