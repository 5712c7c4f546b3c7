import ApiWorkshop.Translation.Matcher

/-!
# Translation tables

A table holds, for each field of a model, rules in the order of declaration.  A
lookup gives the label of the first rule that matches.
-/

namespace ApiWorkshop

abbrev FieldKey := String × String

/-- A rule with its matcher read. -/
structure CompiledRule where
  matcher : Matcher
  label : String
  deriving DecidableEq, Repr

/-- The rules for each field of a model. -/
abbrev TranslationTable := Entries FieldKey (List CompiledRule)

namespace TranslationTable

def compile : List Rule → Except DurationError (List CompiledRule)
  | [] => .ok []
  | rule :: rules => do
      let matcher ← Matcher.parse rule.matcher
      let rest ← compile rules
      .ok (⟨matcher, rule.label⟩ :: rest)

/-- A table with further rules for a field after those it has. -/
def extend (key : FieldKey) (rules : List CompiledRule) (table : TranslationTable) :
    TranslationTable :=
  Entries.put key ((Entries.get? key table).getD [] ++ rules) table

/-- A table with the rules of translations added in order. -/
def addAll : List Translation → TranslationTable → Except DurationError TranslationTable
  | [], table => .ok table
  | translation :: translations, table => do
      let rules ← compile translation.rules
      addAll translations (extend (translation.model, translation.field) rules table)

/-- The table of a list of translations. -/
def ofTranslations (translations : List Translation) :
    Except DurationError TranslationTable :=
  addAll translations []

/-- The names of the models in order. -/
def models (table : TranslationTable) : List String :=
  (table.map fun entry => entry.1.1).eraseDups

/-- The names of the fields of a model in order. -/
def fields (model : String) (table : TranslationTable) : List String :=
  (table.filter fun entry => entry.1.1 = model).map fun entry => entry.1.2

/-- The rules for a field of a model. -/
def rules (model field : String) (table : TranslationTable) : List CompiledRule :=
  (Entries.get? (model, field) table).getD []

/-- The label of the first rule for a field that matches a value. -/
def translate (model field : String) (value : Value) (asOf : DateTime)
    (table : TranslationTable) : Option String :=
  ((rules model field table).find? fun rule => rule.matcher.matchesValue asOf value).map
    CompiledRule.label

/-- The label of the first of some rules that matches a value, when the rules are tried
one after the other. -/
def firstLabel (asOf : DateTime) (value : Value) :
    List CompiledRule → Except LookupError (Option String)
  | [] => .ok none
  | rule :: rules => do
      let isMatch ← rule.matcher.tryValue asOf value
      if isMatch then .ok (some rule.label) else firstLabel asOf value rules

/-- The lookup of a label for any value, also for one without a display text. -/
def lookup (model field : String) (value : Value) (asOf : DateTime) (table : TranslationTable) :
    Except LookupError (Option String) :=
  firstLabel asOf value (rules model field table)

/-- A rule as an array of its matcher and its label. -/
def ruleValue (rule : CompiledRule) : Value :=
  .array [.string rule.matcher.text, .string rule.label]

/-- The document of a table: models with their fields with their rules. -/
def document (table : TranslationTable) : Entries String (Entries String (List CompiledRule)) :=
  table.foldl
    (fun document entry =>
      let model := entry.1.1
      let fields := (Entries.get? model document).getD []
      Entries.put model (Entries.put entry.1.2 entry.2 fields) document)
    []

/-- The document of a table as plain data. -/
def toValue (table : TranslationTable) : Value :=
  .table ((document table).map fun (model, fields) =>
    (model, .table (fields.map fun (field, rules) =>
      (field, .array (rules.map ruleValue)))))

end TranslationTable

end ApiWorkshop
