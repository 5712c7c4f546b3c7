import ApiWorkshop.Project.TypeDefinitions
import ApiWorkshop.Region.Marker
import ApiWorkshop.Text.Lines
import ApiWorkshop.Text.Quoted

/-!
# The schemas module

One file of a project defines the types of its schemas inside a region.  A
record is a class, or a call when a field name cannot stand in a class.
-/

namespace ApiWorkshop

namespace SchemasModule

/-- The type of a field with the mark of a required one. -/
def fieldType (field : RecordField) : Text :=
  if field.required then "Required[" ++ field.annotation ++ "]" else field.annotation

/-- The line of a field in a call. -/
def callField (field : RecordField) : Text :=
  "        " ++ Text.quoted field.name ++ ": " ++ Text.quoted (fieldType field) ++ ","

/-- The line of a field in a class. -/
def classField (field : RecordField) : Text :=
  "    " ++ field.name.toList ++ ": " ++ fieldType field

def onOneLine (description : Text) : Text :=
  description.map fun c => if c = '\n' then ' ' else c

/-- The comment line with the description of a record, if it has one. -/
def commentLines (record : RecordType) : List Text :=
  if record.description.isEmpty then [] else ["# " ++ onOneLine record.description]

def callLines (record : RecordType) : List Text :=
  commentLines record ++
    [record.name ++ " = TypedDict(", "    " ++ Text.quoted record.name ++ ","] ++
    ["    \x7b"].map String.toList ++
    record.fields.map callField ++
    ["    \x7d,", "    total=False,", ")"].map String.toList

/-- The lines with the description of a record inside its class, if it has one. -/
def docLines (record : RecordType) : List Text :=
  if record.description.isEmpty then
    []
  else
    ["    \"\"\"" ++ record.description.toList ++ "\"\"\"", []]

/-- The fields of a class; a class without any says so. -/
def fieldLines (record : RecordType) : List Text :=
  if record.fields.isEmpty then
    ["    pass"].map String.toList
  else
    record.fields.map classField

def classLines (record : RecordType) : List Text :=
  ["class " ++ record.name ++ "(TypedDict, total=False):"] ++ docLines record ++
    fieldLines record

def recordLines (record : RecordType) : List Text :=
  [[], []] ++ if record.functional then callLines record else classLines record

def aliasLine (given : TypeAlias) : Text :=
  given.name ++ " = " ++ given.annotation

def aliasLines (aliases : List TypeAlias) : List Text :=
  if aliases.isEmpty then [] else [[], []] ++ aliases.map aliasLine

def regionLines (api : Api) : List Text :=
  api.records.flatMap recordLines ++ aliasLines api.aliases

def linesBefore : List String :=
  ["\"\"\"Request body types.",
   "",
   "Generated from the ``schemas`` of the API definitions. Edit outside the",
   "marked region only.",
   "\"\"\"",
   "",
   "from __future__ import annotations",
   "",
   "from typing import Any, Required, TypedDict",
   ""]

/-- The text of the module at a path. -/
def text (path : String) (api : Api) : Text :=
  Text.ofLines linesBefore ++ framed path "schemas" (Text.unlines (regionLines api))

end SchemasModule

end ApiWorkshop
