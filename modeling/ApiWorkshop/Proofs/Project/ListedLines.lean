import ApiWorkshop.Project.Rendering
import ApiWorkshop.Proofs.Api.Gathered
import ApiWorkshop.Proofs.Region.Written
import ApiWorkshop.Proofs.Text.Literals
import ApiWorkshop.Proofs.Translation.Document

/-!
# One line for each declaration

The routes module has one line for each declared endpoint, and the labels module one
for each declared rule besides those that open and close a table.  Everything that a
definition says stands in literals on these lines, so it can neither add a line nor make
one that passes for a marker: whatever the definitions say, each module has its one
region, and the lines of the region are known in advance.
-/

namespace ApiWorkshop

namespace Text

theorem not_break_of_mem_append {first second : Text}
    (firstPlain : ∀ c ∈ first, isLineBreak c = false)
    (secondPlain : ∀ c ∈ second, isLineBreak c = false) :
    ∀ c ∈ first ++ second, isLineBreak c = false :=
  List.forall_mem_append.mpr ⟨firstPlain, secondPlain⟩

/-- A line can begin with a literal. -/
theorem isInert_quoted_append (text : Text) {rest : Text}
    (restPlain : ∀ c ∈ rest, isLineBreak c = false) : (quoted text ++ rest).IsInert := by
  refine ⟨not_break_of_mem_append (not_break_of_mem_quoted text) restPlain, ?_⟩
  rw [quoted]
  rcases delimiter_eq text with same | same <;> rw [same] <;> simp [isSpaceOrTab]

end Text

/-- The lists of lines that are the same in every project. -/
def fixedLines : List (List String) :=
  [Overview.tableHead, Overview.ignoredLines, RoutesModule.linesBefore, RoutesModule.linesAfter,
    SchemasModule.linesBefore, LabelsModule.linesBefore, LabelsModule.linesAfter]

/-- Lines that are the same in every project are no markers. -/
theorem isInert_of_fixed (lines : List String) (isFixed : lines ∈ fixedLines) :
    ∀ line ∈ lines.map String.toList, Text.IsInert line := by
  have all : ∀ lines ∈ fixedLines, ∀ line ∈ lines, Text.IsInert line := by
    simp only [fixedLines, Overview.tableHead, Overview.ignoredLines, RoutesModule.linesBefore,
      RoutesModule.linesAfter, SchemasModule.linesBefore, LabelsModule.linesBefore,
      LabelsModule.linesAfter, List.forall_mem_cons]
    and_intros
    all_goals first
      | exact .ofString rfl (by decide +kernel)
      | simp
  exact List.forall_mem_map.mpr (all lines isFixed)

/-! ## Routes -/

namespace RoutesModule

theorem bodyArgument_completeEndpoint (endpoint : Endpoint) :
    bodyArgument (Normalize.completeEndpoint endpoint) = bodyArgument endpoint := by
  obtain ⟨_, _, _, _, _, _, body, _, _⟩ := endpoint
  cases body <;> rfl

theorem line_completeEndpoint (endpoint : Endpoint) :
    line (Normalize.completeEndpoint endpoint) = line endpoint := by
  unfold line
  rw [bodyArgument_completeEndpoint]
  rfl

theorem not_break_of_mem_bodyArgument (endpoint : Endpoint) :
    ∀ c ∈ bodyArgument endpoint, Text.isLineBreak c = false := by
  rw [bodyArgument]
  split
  · split
    · simp
    · exact Text.not_break_of_mem_append (Text.eq_false_of_mem (by decide))
        (Text.not_break_of_mem_quoted _)
  · simp

theorem isInert_line (endpoint : Endpoint) : (line endpoint).IsInert := by
  have comma : ∀ c ∈ (", " : Text), Text.isLineBreak c = false := Text.eq_false_of_mem (by decide)
  have closing : ∀ c ∈ (")," : Text), Text.isLineBreak c = false := Text.eq_false_of_mem (by decide)
  unfold line
  simp only [List.append_assoc]
  apply Text.IsInert.of_front (by decide) (by decide)
  apply Text.not_break_of_mem_append (Text.not_break_of_mem_quoted _)
  apply Text.not_break_of_mem_append comma
  apply Text.not_break_of_mem_append (Text.not_break_of_mem_quoted _)
  apply Text.not_break_of_mem_append comma
  apply Text.not_break_of_mem_append (Text.not_break_of_mem_quoted _)
  apply Text.not_break_of_mem_append comma
  apply Text.not_break_of_mem_append (Text.not_break_of_mem_quoted _)
  exact Text.not_break_of_mem_append (not_break_of_mem_bodyArgument endpoint) closing

theorem isInert_regionLines (endpoints : List Endpoint) :
    ∀ line ∈ regionLines endpoints, line.IsInert := by
  simp only [regionLines, List.forall_mem_cons, List.forall_mem_append, List.forall_mem_map]
  exact ⟨.ofString rfl (by decide +kernel), fun endpoint _ => isInert_line endpoint, by decide,
    by simp⟩

/-- The routes module has its one region, with its lines. -/
theorem hasOneRegion_text (path : String) (endpoints : List Endpoint) :
    HasOneRegion path (text path endpoints) "routes" (regionLines endpoints) :=
  hasOneRegion_framed path ⟨by decide, List.all_eq_true.mp (by decide)⟩
    (isInert_of_fixed linesBefore (by simp [fixedLines])) (isInert_regionLines endpoints)
    (isInert_of_fixed linesAfter (by simp [fixedLines]))

end RoutesModule

/-! ## Labels -/

namespace LabelsModule

/-- What a line between the markers is there for. -/
inductive Line where
  | tableOpening
  | modelOpening (model : String)
  | fieldOpening (field : String)
  | label (rule : Rule)
  | fieldClosing
  | modelClosing
  | tableClosing

def Line.text : Line → Text
  | tableOpening => "TRANSLATIONS: dict[str, dict[str, list[tuple[str, str]]]] = \x7b"
  | modelOpening model => "    " ++ Text.quoted model ++ ": \x7b"
  | fieldOpening field => "        " ++ Text.quoted field ++ ": ["
  | label rule =>
      "            (" ++ Text.quoted rule.matcher ++ ", " ++ Text.quoted rule.label ++ "),"
  | fieldClosing => "        ],"
  | modelClosing => "    \x7d,"
  | tableClosing => "\x7d"

/-- The models of translations, in the order in which they first come. -/
def models (translations : List Translation) : List String :=
  (translations.map Translation.model).eraseDups

def translationLines (translation : Translation) : List Line :=
  .fieldOpening translation.field :: (translation.rules.map .label ++ [.fieldClosing])

/-- The lines for those of some translations that are of a model. -/
def linesOfModel (translations : List Translation) (model : String) : List Line :=
  .modelOpening model ::
    ((translations.filter fun translation => translation.model = model).flatMap
      translationLines ++ [.modelClosing])

/-- The lines for translations: one for each rule, and two around those of each field,
of each model and of all models. -/
def declaredLines (translations : List Translation) : List Line :=
  .tableOpening :: (models translations).flatMap (linesOfModel translations) ++ [.tableClosing]

theorem length_flatMap_translationLines (translations : List Translation) :
    (translations.flatMap translationLines).length =
      (translations.flatMap Translation.rules).length + 2 * translations.length := by
  induction translations with
  | nil => rfl
  | cons translation translations ih =>
      simp only [List.flatMap_cons, List.length_append, ih, translationLines, List.length_cons,
        List.length_map, List.length_nil]
      omega

theorem length_flatMap_linesOfModel (translations : List Translation) (models : List String) :
    (models.flatMap (linesOfModel translations)).length =
      ((models.flatMap fun model =>
        translations.filter fun translation => translation.model = model).flatMap
          translationLines).length + 2 * models.length := by
  induction models with
  | nil => rfl
  | cons model models ih =>
      simp only [List.flatMap_cons, List.flatMap_append, List.length_append, ih, linesOfModel,
        List.length_cons, List.length_nil]
      omega

/-- There are as many lines as rules, and two more for each field, each model and the
table. -/
theorem length_declaredLines (translations : List Translation) :
    (declaredLines translations).length = (translations.flatMap Translation.rules).length +
      2 * (translations.length + (models translations).length + 1) := by
  -- Taking the translations by their models only reorders them.
  have regrouped : ((models translations).flatMap fun model =>
      translations.filter fun translation => translation.model = model).Perm translations :=
    Entries.perm_flatMap_filter (Entries.nodup_eraseDups _) fun translation member =>
      List.mem_eraseDups.mpr (List.mem_map_of_mem member)
  rw [declaredLines, List.length_append, List.length_cons, length_flatMap_linesOfModel,
    (regrouped.flatMap_right translationLines).length_eq, length_flatMap_translationLines,
    List.length_singleton]
  omega

theorem isInert_text (line : Line) : line.text.IsInert := by
  cases line with
  | tableOpening => exact .ofString rfl (by decide +kernel)
  | modelOpening model =>
      change Text.IsInert ("    " ++ Text.quoted model ++ ": \x7b")
      rw [List.append_assoc]
      apply Text.IsInert.indented _ (by decide)
      exact Text.isInert_quoted_append _ (Text.eq_false_of_mem (by decide))
  | fieldOpening field =>
      change Text.IsInert ("        " ++ Text.quoted field ++ ": [")
      rw [List.append_assoc]
      apply Text.IsInert.indented _ (by decide)
      exact Text.isInert_quoted_append _ (Text.eq_false_of_mem (by decide))
  | label rule =>
      change Text.IsInert ("            (" ++ Text.quoted rule.matcher ++ ", " ++
        Text.quoted rule.label ++ "),")
      simp only [List.append_assoc]
      apply Text.IsInert.of_front (by decide) (by decide)
      apply Text.not_break_of_mem_append (Text.not_break_of_mem_quoted _)
      apply Text.not_break_of_mem_append (Text.eq_false_of_mem (by decide))
      exact Text.not_break_of_mem_append (Text.not_break_of_mem_quoted _)
        (Text.eq_false_of_mem (by decide))
  | fieldClosing => exact .ofString rfl (by decide +kernel)
  | modelClosing => exact .ofString rfl (by decide +kernel)
  | tableClosing => exact .ofString rfl (by decide +kernel)

/-- The lines of a table are those for the translations that it was made of. -/
theorem regionLines_eq {table : TranslationTable} (distinct : (Entries.keys table).Nodup) :
    regionLines table =
      (declaredLines (table.map TranslationTable.entryTranslation)).map Line.text := by
  have ofField (entry : FieldKey × List CompiledRule) : fieldLines (entry.1.2, entry.2) =
      (translationLines (TranslationTable.entryTranslation entry)).map Line.text := by
    simp only [fieldLines, translationLines, TranslationTable.entryTranslation, List.map_cons,
      List.map_append, List.map_map, List.map_nil]
    rfl
  have ofModel (model : String) :
      modelLines (model, Entries.group (fun entry => entry.1.1) (fun entry => entry.1.2)
        (fun entry => entry.2) table model) =
      (linesOfModel (table.map TranslationTable.entryTranslation) model).map Line.text := by
    rw [modelLines, linesOfModel, Entries.group, List.filter_map, List.flatMap_map,
      List.flatMap_map, List.map_cons, List.map_append, List.map_flatMap]
    exact congrArg _ (congrArg (· ++ _) (List.flatMap_congr fun entry _ => ofField entry))
  have sameModels : models (table.map TranslationTable.entryTranslation) =
      (table.map fun entry => entry.1.1).eraseDups := by
    rw [models, List.map_map]
    rfl
  rw [regionLines, declaredLines, sameModels, TranslationTable.document_eq_grouped distinct,
    Entries.grouped, List.flatMap_map, List.map_append, List.map_cons, List.map_flatMap]
  exact congrArg _ (congrArg (· ++ _) (List.flatMap_congr fun model _ => ofModel model))

/-- The labels module has its one region, with the lines for the translations that its table
was made of. -/
theorem hasOneRegion_text (path : String) {table : TranslationTable}
    (distinct : (Entries.keys table).Nodup) :
    HasOneRegion path (text path table) "translations"
      ((declaredLines (table.map TranslationTable.entryTranslation)).map Line.text) := by
  rw [text, regionLines_eq distinct]
  exact hasOneRegion_framed path ⟨by decide, List.all_eq_true.mp (by decide)⟩
    (isInert_of_fixed linesBefore (by simp [fixedLines]))
    (List.forall_mem_map.mpr fun line _ => isInert_text line)
    (isInert_of_fixed linesAfter (by simp [fixedLines]))

end LabelsModule

namespace TranslationTable

/-- A table of translations for different fields lists the translations. -/
theorem map_entryTranslation_of_addAll {translations : List Translation}
    {table extended : TranslationTable} (isExtended : addAll translations table = .ok extended)
    (distinct : (Entries.keys table ++ translations.map fun translation =>
      (translation.model, translation.field)).Nodup) :
    extended.map entryTranslation = table.map entryTranslation ++ translations := by
  induction translations generalizing table with
  | nil =>
      obtain rfl := Except.ok.inj isExtended
      rw [List.append_nil]
  | cons translation translations ih =>
      obtain ⟨compiled, isCompiled, isRest⟩ := bind_eq_ok_iff.mp isExtended
      have isNew : (translation.model, translation.field) ∉ Entries.keys table := by
        intro member
        exact (List.nodup_append.mp distinct).2.2 _ member _ List.mem_cons_self rfl
      have extendedBy : extend (translation.model, translation.field) compiled table =
          table ++ [((translation.model, translation.field), compiled)] := by
        rw [extend, Entries.put_of_not_mem _ isNew, Entries.get?_of_not_mem isNew]
        rfl
      rw [extendedBy] at isRest
      rw [ih isRest (by simpa [Entries.keys] using distinct), List.map_append, List.append_assoc]
      obtain ⟨sameRules, -⟩ := compile_eq_ok_iff.mp isCompiled
      rw [List.map_singleton, entryTranslation, ← sameRules]
      rfl

end TranslationTable

/-! ## The two modules of a project -/

/-- The routes module and the labels module of a project have one region each, and its
lines are those for the declared endpoints, or those for the declared translations. -/
structure ListsDeclarations (settings : ProjectSettings) (api : Api) (table : TranslationTable)
    (definitions : List Definition) : Prop where
  routes : HasOneRegion (ProjectFile.routes.path settings.packageName).label
    (ProjectFile.routes.text settings api table).shown "routes"
    (("ROUTES: list[Route] = [" : Text) ::
      ((definitions.flatMap Definition.endpoints).map RoutesModule.line ++ [("]" : Text)]))
  labels : HasOneRegion (ProjectFile.labels.path settings.packageName).label
    (ProjectFile.labels.text settings api table).shown "translations"
    ((LabelsModule.declaredLines (definitions.flatMap Definition.translations)).map
      LabelsModule.Line.text)
  labelsCount :
    let translations := definitions.flatMap Definition.translations
    (LabelsModule.declaredLines translations).length =
      (translations.flatMap Translation.rules).length +
        2 * (translations.length + (LabelsModule.models translations).length + 1)

/-- Whatever accepted definitions say, the two modules list their declarations line by
line. -/
theorem listsDeclarations_of_normalize {heading : Heading} {definitions : List Definition}
    {api : Api} (isApi : normalize heading definitions = .ok api) :
    ∃ table, TranslationTable.ofTranslations api.translations = .ok table ∧
      ∀ settings, ListsDeclarations settings api table definitions := by
  obtain ⟨table, isTable⟩ := TranslationTable.exists_ofTranslations isApi
  refine ⟨table, isTable, fun settings => ?_⟩
  have sameEndpoints : RoutesModule.regionLines api.endpoints =
      ("ROUTES: list[Route] = [" : Text) ::
        ((definitions.flatMap Definition.endpoints).map RoutesModule.line ++ [("]" : Text)]) := by
    rw [RoutesModule.regionLines, Api.endpoints_of_normalize isApi, List.map_map]
    refine congrArg (_ :: · ++ _) (List.map_congr_left fun endpoint _ => ?_)
    exact RoutesModule.line_completeEndpoint endpoint
  have sameTranslations : table.map TranslationTable.entryTranslation =
      definitions.flatMap Definition.translations := by
    have distinct := Api.nodup_translations_of_normalize isApi
    rw [Api.translations_of_normalize isApi] at isTable distinct
    exact TranslationTable.map_entryTranslation_of_addAll isTable distinct
  exact
    { routes := by
        rw [ProjectFile.text, LooseText.shown_ofText, ← sameEndpoints]
        exact RoutesModule.hasOneRegion_text _ api.endpoints
      labels := by
        rw [ProjectFile.text, LooseText.shown_ofText, ← sameTranslations]
        exact LabelsModule.hasOneRegion_text _
          (TranslationTable.nodup_keys_of_ofTranslations isTable)
      labelsCount := LabelsModule.length_declaredLines _ }

/-- A definition file whose texts are made of line breaks, delimiters and markers. -/
def hostileFile : SourceText :=
  ⟨"api.toml", Text.ofLines [
    "[[endpoints]]", "path = \"/a\\n# specforge:end routes\"", "method = \"GET\"",
    "summary = \"\\u2028# specforge:begin routes\\r\\n'\\\"\\\\\"",
    "[models.\"m\\u0085]\".state]",
    "translations = [[\"\\n# specforge:end translations\", \"\\u001C'\"]]"]⟩

/-- The file with such texts has one endpoint and one rule, each on a line of its own. -/
theorem listsDeclarations_of_hostileFile :
    ∃ definitions api, Definition.readAll [hostileFile] = .ok definitions ∧
      normalize {} definitions = .ok api ∧
      (definitions.flatMap Definition.endpoints).map Endpoint.path =
        ["/a\n# specforge:end routes"] ∧
      (definitions.flatMap Definition.translations).flatMap Translation.rules =
        [⟨"\n# specforge:end translations", "\x1c'"⟩] ∧
      ∃ table, TranslationTable.ofTranslations api.translations = .ok table ∧
        ∀ settings, ListsDeclarations settings api table definitions := by
  have evaluated : ((Definition.readAll [hostileFile]).toOption.any fun definitions =>
      (normalize {} definitions).toOption.any fun _ =>
        decide ((definitions.flatMap Definition.endpoints).map Endpoint.path =
          ["/a\n# specforge:end routes"]) &&
        decide ((definitions.flatMap Definition.translations).flatMap Translation.rules =
          [⟨"\n# specforge:end translations", "\x1c'"⟩])) = true := by decide +kernel
  obtain ⟨definitions, areRead, evaluated⟩ := exists_of_any_toOption evaluated
  obtain ⟨api, isApi, evaluated⟩ := exists_of_any_toOption evaluated
  simp only [Bool.and_eq_true, decide_eq_true_eq] at evaluated
  exact ⟨definitions, api, areRead, isApi, evaluated.1, evaluated.2,
    listsDeclarations_of_normalize isApi⟩

end ApiWorkshop
