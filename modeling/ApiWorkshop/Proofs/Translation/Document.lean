import ApiWorkshop.Proofs.Api.Completed
import ApiWorkshop.Proofs.Entries.Grouped
import ApiWorkshop.Proofs.OpenApi.Operations
import ApiWorkshop.Proofs.Translation.Lookup

/-!
# Documents of translation tables

The document of a table groups its fields by model and writes every matcher as a
text.  Nothing is lost on the way: the translations that the document lists make a
table with the same rules for every field, whatever declarations the first table
was made of.
-/

namespace ApiWorkshop

/-- The rule that a value of a document stands for: an array of a matcher and a label. -/
def Rule.ofValue? : Value → Option Rule
  | .array [.string matcher, .string label] => some ⟨matcher, label⟩
  | _ => none

/-- The translations that a document of a table lists. -/
def documentTranslations (document : Value) : List Translation :=
  document.entries.flatMap fun entry => entry.2.entries.map fun found =>
    { model := entry.1, field := found.1, rules := found.2.items.filterMap Rule.ofValue? }

namespace TranslationTable

variable {translations : List Translation} {table : TranslationTable}

/-- The translation that an entry of a table stands for. -/
def entryTranslation (entry : FieldKey × List CompiledRule) : Translation :=
  { model := entry.1.1, field := entry.1.2, rules := entry.2.map CompiledRule.rule }

theorem ofValue?_ruleValue (rule : CompiledRule) :
    Rule.ofValue? (ruleValue rule) = some rule.rule :=
  rfl

theorem document_eq_grouped (distinct : (Entries.keys table).Nodup) :
    document table =
      Entries.grouped (fun entry => entry.1.1) (fun entry => entry.1.2) (fun entry => entry.2)
        table :=
  Entries.foldl_put_eq_grouped distinct

/-- The document of a table lists its entries in another order. -/
theorem perm_documentTranslations (distinct : (Entries.keys table).Nodup) :
    (documentTranslations (toValue table)).Perm (table.map entryTranslation) := by
  have listed : documentTranslations (toValue table) =
      (document table).flatMap fun entry => entry.2.map fun found =>
        entryTranslation ((entry.1, found.1), found.2) := by
    simp only [documentTranslations, toValue, Value.entries, List.flatMap_map, List.map_map]
    refine List.flatMap_congr fun entry _ => List.map_congr_left fun found _ => ?_
    simp [Value.items, List.filterMap_map, Function.comp_def, ofValue?_ruleValue, entryTranslation,
      List.filterMap_eq_map']
  rw [listed, document_eq_grouped distinct]
  exact Entries.perm_flatMap_grouped
    (fun model field rules => entryTranslation ((model, field), rules)) table

/-- The document of a table lists for a field the rules that the table has for it. -/
theorem declaredRules_documentTranslations (distinct : (Entries.keys table).Nodup)
    (model field : String) :
    declaredRules model field (documentTranslations (toValue table)) =
      (rules model field table).map CompiledRule.rule := by
  have listed := (perm_documentTranslations distinct).filter fun translation =>
    translation.model = model ∧ translation.field = field
  have ofField : ((table.map entryTranslation).filter fun translation =>
      translation.model = model ∧ translation.field = field) =
        (table.filter fun entry => entry.1 = (model, field)).map entryTranslation := by
    rw [List.filter_map]
    refine congrArg _ (List.filter_congr fun entry _ => decide_eq_decide.mpr ?_)
    exact (Prod.ext_iff (x := entry.1) (y := (model, field))).symm
  rw [ofField, Entries.filter_key_eq distinct] at listed
  rw [declaredRules, rules]
  cases isFound : Entries.get? (model, field) table with
  | none =>
      rw [isFound] at listed
      rw [listed.eq_nil]
      rfl
  | some found =>
      rw [isFound] at listed
      rw [List.perm_singleton.mp listed]
      simp [entryTranslation]

/-- The translations that a document lists can be compiled again, to the same rules. -/
theorem exists_rebuilt (isTable : ofTranslations translations = .ok table) :
    ∃ rebuilt, ofTranslations (documentTranslations (toValue table)) = .ok rebuilt ∧
      ∀ model field, rules model field rebuilt = rules model field table := by
  have distinct := nodup_keys_of_ofTranslations isTable
  have compiled (model field : String) :
      compile ((rules model field table).map CompiledRule.rule) = .ok (rules model field table) :=
    compile_eq_ok_iff.mpr ⟨rfl, (compile_eq_ok_iff.mp (compile_declaredRules isTable model field)).2⟩
  have noFault : ∀ translation ∈ documentTranslations (toValue table),
      ∀ rule ∈ translation.rules, rule.durationFault? = none := by
    intro translation isListed rule isRule
    obtain ⟨entry, isEntry, rfl⟩ :=
      List.mem_map.mp ((perm_documentTranslations distinct).mem_iff.mp isListed)
    obtain ⟨found, isFound, rfl⟩ := List.mem_map.mp isRule
    have sameRules : rules entry.1.1 entry.1.2 table = entry.2 := by
      rw [rules, Entries.get?_of_mem distinct isEntry]
      rfl
    exact Rule.durationFault?_of_parse
      ((compile_eq_ok_iff.mp (compiled entry.1.1 entry.1.2)).2 found (sameRules ▸ isFound))
  obtain ⟨rebuilt, isRebuilt⟩ := exists_addAll noFault []
  refine ⟨rebuilt, isRebuilt, fun model field => ?_⟩
  have again := compile_declaredRules isRebuilt model field
  rw [declaredRules_documentTranslations distinct] at again
  exact Except.ok.inj (again.symm.trans (compiled model field))

/-- A lookup gives the label of the first declared rule that applies, or nothing when
there is none, and the document of the table keeps all answers. -/
theorem translate_of_ofTranslations (isTable : ofTranslations translations = .ok table) :
    (∀ model field value asOf label, translate model field value asOf table = some label ↔
      ∃ rule, Rule.IsFirst asOf value (declaredRules model field translations) rule ∧
        rule.label = label) ∧
    (∀ model field value asOf, translate model field value asOf table = none ↔
      ∀ rule ∈ declaredRules model field translations, ¬ rule.Applies asOf value) ∧
    ∃ rebuilt, ofTranslations (documentTranslations (toValue table)) = .ok rebuilt ∧
      ∀ model field value asOf,
        translate model field value asOf rebuilt = translate model field value asOf table := by
  have compiled (model field : String) := compile_declaredRules isTable model field
  refine ⟨fun model field value asOf label => find?_matchesValue_eq_some_iff (compiled model field),
    fun model field value asOf => find?_matchesValue_eq_none_iff (compiled model field), ?_⟩
  obtain ⟨rebuilt, isRebuilt, sameRules⟩ := exists_rebuilt isTable
  refine ⟨rebuilt, isRebuilt, fun model field value asOf => ?_⟩
  rw [translate, translate, sameRules]

/-- Rules for two fields, those of the first in two declarations. -/
def scatteredTranslations : List Translation :=
  [⟨"user", "seen", [⟨"$span:1d", "today"⟩, ⟨"never", "new"⟩]⟩,
    ⟨"shop", "state", [⟨"open", "Open"⟩]⟩,
    ⟨"user", "seen", [⟨"$span:7d", "this week"⟩, ⟨"$span:1h", "just now"⟩]⟩]

/-- A lookup looks into both declarations of a field. -/
theorem translate_of_scatteredTranslations :
    ∃ table, ofTranslations scatteredTranslations = .ok table ∧
      declaredRules "user" "seen" scatteredTranslations =
        [⟨"$span:1d", "today"⟩, ⟨"never", "new"⟩, ⟨"$span:7d", "this week"⟩,
          ⟨"$span:1h", "just now"⟩] ∧
      translate "user" "seen" (.string "2024-05-01T10:00:00Z")
        ⟨⟨2024, 5, 3, by decide⟩, .midnight, none⟩ table = some "this week" ∧
      ∃ rebuilt, ofTranslations (documentTranslations (toValue table)) = .ok rebuilt ∧
        ∀ model field value asOf,
          translate model field value asOf rebuilt = translate model field value asOf table := by
  have evaluated : ((ofTranslations scatteredTranslations).toOption.any fun table =>
      decide (translate "user" "seen" (.string "2024-05-01T10:00:00Z")
        ⟨⟨2024, 5, 3, by decide⟩, .midnight, none⟩ table = some "this week")) = true := by
    decide +kernel
  obtain ⟨table, isTable, isFound⟩ := exists_of_any_toOption evaluated
  exact ⟨table, isTable, rfl, of_decide_eq_true isFound,
    (translate_of_ofTranslations isTable).2.2⟩

end TranslationTable

end ApiWorkshop
