import ApiWorkshop.Region.Marker
import ApiWorkshop.Text.Lines
import ApiWorkshop.Text.Quoted
import ApiWorkshop.Translation.Table

/-!
# The labels module

One file of a project lists the translation rules, each on a line of its own
inside a region.
-/

namespace ApiWorkshop

namespace LabelsModule

def ruleLine (rule : CompiledRule) : Text :=
  "            (" ++ Text.quoted rule.matcher.text ++ ", " ++ Text.quoted rule.label ++ "),"

def fieldLines (field : String × List CompiledRule) : List Text :=
  ("        " ++ Text.quoted field.1 ++ ": [") :: (field.2.map ruleLine ++ [("        ]," : Text)])

def modelLines (model : String × Entries String (List CompiledRule)) : List Text :=
  ("    " ++ Text.quoted model.1 ++ ": \x7b") ::
    (model.2.flatMap fieldLines ++ [("    \x7d," : Text)])

def regionLines (table : TranslationTable) : List Text :=
  ("TRANSLATIONS: dict[str, dict[str, list[tuple[str, str]]]] = \x7b" : Text) ::
    (table.document.flatMap modelLines ++ [("\x7d" : Text)])

def linesBefore : List String :=
  ["\"\"\"Display labels for model field values.",
   "",
   "``TRANSLATIONS`` is regenerated from the ``models`` tables of the API",
   "definitions. Literal matchers are looked up here; ``$span:`` matchers need",
   "a timestamp and are resolved by ``specforge translate``.",
   "\"\"\"",
   "",
   "from __future__ import annotations",
   "",
   "from typing import Optional",
   ""]

def linesAfter : List String :=
  ["",
   "",
   "def translate(model: str, field: str, value: object) -> Optional[str]:",
   "    \"\"\"Label for a literal ``value`` of ``model.field``, or ``None``.\"\"\"",
   "    text = str(value).lower() if isinstance(value, bool) else str(value)",
   "    for matcher, label in TRANSLATIONS.get(model, \x7b\x7d).get(field, []):",
   "        if not matcher.startswith(\"$span:\") and matcher == text:",
   "            return label",
   "    return None"]

/-- The text of the module at a path. -/
def text (path : String) (table : TranslationTable) : Text :=
  Text.ofLines linesBefore ++
    framed path "translations" (Text.unlines (regionLines table)) ++
    Text.ofLines linesAfter

end LabelsModule

end ApiWorkshop
