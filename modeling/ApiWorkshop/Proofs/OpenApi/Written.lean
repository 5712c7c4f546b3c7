import ApiWorkshop.Project.Rendering
import ApiWorkshop.Proofs.Json.Reading
import ApiWorkshop.Proofs.Json.Words
import ApiWorkshop.Proofs.OpenApi.Annotated
import ApiWorkshop.Proofs.OpenApi.Regular

/-!
# The documents of accepted APIs

Everything that is made of an accepted API has a text, apart from an OpenAPI
document with a date among the choices or with an integer that is too long.
The text is JSON exactly if the numbers in the notes are finite, and is then
read as the document.
-/

namespace ApiWorkshop

/-- An API without dates among its choices and with integers that can be written. -/
structure Api.IsWritable (api : Api) : Prop where
  choices : ∀ notes, api.Annotates notes →
    ∀ choice ∈ notes.choices.getD [], choice.All (·.isDated = false)
  integers : ∀ notes, api.Annotates notes → notes.All (·.isWritable = true)

/-- An API whose values have finite numbers only. -/
def Api.IsFinite (api : Api) : Prop :=
  ∀ notes, api.Annotates notes → notes.All Scalar.IsFinite

/-! ## Translations -/

namespace TranslationTable

/-- The models of a document have distinct keys, and so have the fields of each. -/
theorem distinctKeys_document (table : TranslationTable) :
    Entries.DistinctKeys (document table) := by
  have nothing : Entries.DistinctKeys ([] : Entries String (Entries String (List CompiledRule))) :=
    ⟨List.nodup_nil, List.forall_mem_nil _⟩
  exact List.foldlRecOn table _ nothing fun document distinct entry _ =>
    Entries.distinctKeys_put distinct entry.1.1 entry.1.2 entry.2

/-- The document of a table holds texts only. -/
theorem regular_toValue (table : TranslationTable) :
    table.toValue.Regular fun part => ∃ text, part = .string text := by
  obtain ⟨distinct, distinctFields⟩ := distinctKeys_document table
  refine .table ?_ (List.forall_mem_map.mpr fun model isModel => ?_)
  · rwa [Entries.keys, List.map_map]
  · refine .table ?_ (List.forall_mem_map.mpr fun field _ => ?_)
    · rw [Entries.keys, List.map_map]
      exact distinctFields model isModel
    · refine .array (List.forall_mem_map.mpr fun rule _ => .array ?_)
      refine List.forall_mem_cons.mpr ⟨.scalar ⟨_, rfl⟩, List.forall_mem_singleton.mpr ?_⟩
      exact .scalar ⟨_, rfl⟩

/-- The document of a table has a text that follows the grammar. -/
theorem exists_documentOf (table : TranslationTable) :
    ∃ text, Json.documentOf table.toValue = .ok text ∧ Json.IsDocument text table.toValue := by
  have hasText : table.toValue.All Scalar.HasText :=
    (regular_toValue table).all.imp fun part ⟨text, isText⟩ => isText ▸ ⟨rfl, rfl⟩
  obtain ⟨text, isText⟩ := Json.exists_documentOf_iff.mpr hasText
  refine ⟨text, isText, Json.isDocument_documentOf ?_ isText⟩
  exact (regular_toValue table).imp fun part ⟨text, isText⟩ => isText ▸ trivial

end TranslationTable

/-! ## The OpenAPI document -/

namespace OpenApi

theorem exists_draft_iff {api : Api} :
    (∃ made, draft api = .ok made) ↔ (document api).All Scalar.HasText := by
  rw [← Json.exists_documentOf_iff]
  constructor
  · rintro ⟨made, isMade⟩
    obtain ⟨text, isText, -⟩ := bind_eq_ok_iff.mp isMade
    exact ⟨text, isText⟩
  · rintro ⟨text, isText⟩
    exact ⟨_, bind_eq_ok_iff.mpr ⟨text, isText, rfl⟩⟩

/-- The documents of a project have texts exactly if the OpenAPI document has one. -/
theorem exists_renderDocuments_iff {settings : ProjectSettings} {api : Api}
    {table : TranslationTable} :
    (∃ documents, renderDocuments settings api table = .ok documents) ↔
      ∃ made, draft api = .ok made := by
  constructor
  · rintro ⟨documents, areMade⟩
    obtain ⟨made, isMade, -⟩ := bind_eq_ok_iff.mp areMade
    exact ⟨made, isMade⟩
  · rintro ⟨made, isMade⟩
    obtain ⟨text, isText, -⟩ := table.exists_documentOf
    exact ⟨_, bind_eq_ok_iff.mpr ⟨made, isMade, bind_eq_ok_iff.mpr ⟨text, isText, rfl⟩⟩⟩

/-- Notes of a regular API have regular values. -/
theorem regular_of_annotates {api : Api} (regular : api.Regular) {notes : Notes}
    (annotates : api.Annotates notes) : notes.Regular := by
  cases annotates with
  | schema isSchema =>
      have isRegular := regular.schemas _ isSchema
      exact ⟨isRegular.choices, nofun, isRegular.sample⟩
  | field isSchema holds =>
      have isRegular := regular.schemas _ isSchema
      rcases holds with ⟨entry, isEntry, inside⟩ | ⟨item, isItem, inside⟩
      · exact (inside.regular (isRegular.fields entry isEntry)).notes
      · exact (inside.regular (isRegular.items item isItem)).notes
  | parameter isEndpoint isParameter => exact regular.parameters _ isEndpoint _ isParameter

/-- Only choices can have dates in them. -/
theorem all_undated_iff {notes : Notes} (regular : notes.Regular) :
    notes.All (·.isDated = false) ↔
      ∀ choice ∈ notes.choices.getD [], choice.All (·.isDated = false) := by
  have undated {value : Value} (isPlain : value.Regular Scalar.IsPlain) :
      value.All (·.isDated = false) := isPlain.all.imp fun _ => And.right
  constructor
  · exact fun obey choice isChoice => obey choice
      (List.mem_append_left _ (List.mem_append_left _ isChoice))
  · intro obey value isValue
    rcases List.mem_append.mp isValue with isEarlier | isSample
    · rcases List.mem_append.mp isEarlier with isChoice | isFallback
      · exact obey value isChoice
      · exact undated (regular.fallback value (Option.mem_toList.mp isFallback))
    · exact undated (regular.sample value (Option.mem_toList.mp isSample))

/-- The document of a regular API can be written exactly if the API is writable. -/
theorem all_hasText_iff {api : Api} (regular : api.Regular) :
    (document api).All Scalar.HasText ↔ api.IsWritable := by
  have parts {notes : Notes} (annotates : api.Annotates notes) : notes.All Scalar.HasText ↔
      (∀ choice ∈ notes.choices.getD [], choice.All (·.isDated = false)) ∧
        notes.All (·.isWritable = true) := by
    rw [← all_undated_iff (regular_of_annotates regular annotates)]
    exact (forall₂_congr fun value _ => Value.all_and_iff).trans forall₂_and
  rw [all_document_iff ⟨fun _ => ⟨rfl, rfl⟩, fun _ => ⟨rfl, rfl⟩⟩ regular]
  constructor
  · intro obey
    exact ⟨fun notes annotates => ((parts annotates).mp (obey notes annotates)).1,
      fun notes annotates => ((parts annotates).mp (obey notes annotates)).2⟩
  · intro writable notes annotates
    exact (parts annotates).mpr ⟨writable.choices notes annotates, writable.integers notes annotates⟩

theorem all_isFinite_iff {api : Api} (regular : api.Regular) :
    (document api).All Scalar.IsFinite ↔ api.IsFinite :=
  all_document_iff ⟨fun _ => trivial, fun _ => trivial⟩ regular

theorem documentOf_of_draft {api : Api} {made : Draft} (isMade : draft api = .ok made) :
    Json.documentOf (document api) = .ok made.text := by
  obtain ⟨text, isText, same⟩ := bind_eq_ok_iff.mp isMade
  exact Except.ok.inj same ▸ isText

theorem isPure_draft_iff {api : Api} (regular : api.Regular) {made : Draft}
    (isMade : draft api = .ok made) : Json.isPure false made.text = true ↔ api.IsFinite := by
  rw [Json.isPure_documentOf_iff (regular_document regular).all (documentOf_of_draft isMade),
    all_isFinite_iff regular]

/-- The text of a document is JSON exactly if the API is finite. -/
theorem exists_isDocument_draft_iff {api : Api} (regular : api.Regular) {made : Draft}
    (isMade : draft api = .ok made) : (∃ found, Json.IsDocument made.text found) ↔ api.IsFinite := by
  rw [Json.exists_isDocument_iff (regular_document regular) (documentOf_of_draft isMade),
    all_isFinite_iff regular]

/-- The text of the document of a finite API is read as the document. -/
theorem isDocument_draft {api : Api} (regular : api.Regular) (finite : api.IsFinite) {made : Draft}
    (isMade : draft api = .ok made) :
    Json.IsDocument made.text (document api) ∧ ∃ content,
      JsonValue.ofValue (document api) = .ok content ∧ Json.read made.text = .ok content := by
  have isText := documentOf_of_draft isMade
  have isFinite := (all_isFinite_iff regular).mpr finite
  have isDocument :=
    Json.isDocument_documentOf ((regular_document regular).isStandard isFinite) isText
  obtain ⟨content, isContent, -⟩ := bind_eq_ok_iff.mp isText
  exact ⟨isDocument, content, isContent, Json.read_of_isDocument isDocument isContent⟩

end OpenApi

/-- Of an accepted API the table of translations can be compiled and written.  The
OpenAPI document, and with it the documents of a project, can be written exactly
if there is no date among the choices and no integer that is too long.  What is
written is JSON exactly if all numbers in the notes are finite, and is then read
as the document. -/
theorem written_of_normalize {files : List SourceText} {heading : Heading}
    {definitions : List Definition} {api : Api}
    (areRead : Definition.readAll files = .ok definitions)
    (isApi : normalize heading definitions = .ok api) :
    (∃ table, TranslationTable.ofTranslations api.translations = .ok table ∧
      (∃ text, Json.documentOf table.toValue = .ok text ∧ Json.IsDocument text table.toValue) ∧
      ∀ settings,
        (∃ documents, renderDocuments settings api table = .ok documents) ↔ api.IsWritable) ∧
    ((∃ made, OpenApi.draft api = .ok made) ↔ api.IsWritable) ∧
    ∀ made, OpenApi.draft api = .ok made →
      ((∃ found, Json.IsDocument made.text found) ↔ api.IsFinite) ∧
      (api.IsFinite → Json.IsDocument made.text (OpenApi.document api) ∧ ∃ content,
        JsonValue.ofValue (OpenApi.document api) = .ok content ∧
          Json.read made.text = .ok content) := by
  have regular := Api.regular_of_normalize areRead isApi
  have isWritten : (∃ made, OpenApi.draft api = .ok made) ↔ api.IsWritable :=
    OpenApi.exists_draft_iff.trans (OpenApi.all_hasText_iff regular)
  obtain ⟨table, isTable⟩ := TranslationTable.exists_ofTranslations isApi
  refine ⟨⟨table, isTable, table.exists_documentOf, fun settings => ?_⟩, isWritten, ?_⟩
  · rw [OpenApi.exists_renderDocuments_iff, isWritten]
  · intro made isMade
    exact ⟨OpenApi.exists_isDocument_draft_iff regular isMade,
      fun finite => OpenApi.isDocument_draft regular finite isMade⟩

/-- A file with numbers and a date in the notes of its fields. -/
def gaugeFile : SourceText :=
  ⟨"gauge.toml", "[schemas.gauge]\nlevel = \x7b type = \"number\", enum = [0.5, 1e300], default = 0.5 \x7d
since = \x7b type = \"string\", default = 2024-01-01 \x7d\n".toList⟩

/-- A file with a number that is not finite. -/
def boundlessFile : SourceText :=
  ⟨"gauge.toml", "[schemas.gauge]\ntype = \"number\"\nenum = [inf]\n".toList⟩

/-- The document of the first file is JSON and is read again, the one of the second
file is no JSON. -/
theorem written_of_normalize_of_gaugeFiles :
    (∃ definitions api made, Definition.readAll [gaugeFile] = .ok definitions ∧
      normalize {} definitions = .ok api ∧ OpenApi.draft api = .ok made ∧
      ∃ content, JsonValue.ofValue (OpenApi.document api) = .ok content ∧
        Json.read made.text = .ok content) ∧
    ∃ definitions api made, Definition.readAll [boundlessFile] = .ok definitions ∧
      normalize {} definitions = .ok api ∧ OpenApi.draft api = .ok made ∧
      ¬ ∃ found, Json.IsDocument made.text found := by
  constructor
  · have evaluated : ((Definition.readAll [gaugeFile]).toOption.any fun definitions =>
        (normalize {} definitions).toOption.any fun api =>
          (OpenApi.draft api).toOption.any fun made => Json.isPure false made.text) = true := by
      decide +kernel
    obtain ⟨definitions, areRead, evaluated⟩ := exists_of_any_toOption evaluated
    obtain ⟨api, isApi, evaluated⟩ := exists_of_any_toOption evaluated
    obtain ⟨made, isMade, isPure⟩ := exists_of_any_toOption evaluated
    obtain ⟨-, -, ofMade⟩ := written_of_normalize areRead isApi
    have regular := Api.regular_of_normalize areRead isApi
    have finite := (OpenApi.isPure_draft_iff regular isMade).mp isPure
    exact ⟨definitions, api, made, areRead, isApi, isMade, ((ofMade made isMade).2 finite).2⟩
  · have evaluated : ((Definition.readAll [boundlessFile]).toOption.any fun definitions =>
        (normalize {} definitions).toOption.any fun api =>
          (OpenApi.draft api).toOption.any fun made => !Json.isPure false made.text) = true := by
      decide +kernel
    obtain ⟨definitions, areRead, evaluated⟩ := exists_of_any_toOption evaluated
    obtain ⟨api, isApi, evaluated⟩ := exists_of_any_toOption evaluated
    obtain ⟨made, isMade, notPure⟩ := exists_of_any_toOption evaluated
    rw [Bool.not_eq_true'] at notPure
    obtain ⟨-, -, ofMade⟩ := written_of_normalize areRead isApi
    have regular := Api.regular_of_normalize areRead isApi
    refine ⟨definitions, api, made, areRead, isApi, isMade, ?_⟩
    rw [(ofMade made isMade).1, ← OpenApi.isPure_draft_iff regular isMade, notPure]
    exact Bool.false_ne_true

/-- A file with a date among the choices of a schema. -/
def dayFile : SourceText :=
  ⟨"day.toml", "[schemas.day]\ntype = \"string\"\nenum = [2024-01-01]\n".toList⟩

/-- The document of an accepted API with a date among its choices has no text. -/
theorem draft_eq_date_of_dayFile :
    ∃ definitions api, Definition.readAll [dayFile] = .ok definitions ∧
      normalize {} definitions = .ok api ∧ OpenApi.draft api = .error .date := by
  have evaluated : ((Definition.readAll [dayFile]).toOption.any fun definitions =>
      (normalize {} definitions).toOption.any fun api =>
        decide (OpenApi.draft api = .error .date)) = true := by decide +kernel
  obtain ⟨definitions, areRead, evaluated⟩ := exists_of_any_toOption evaluated
  obtain ⟨api, isApi, failed⟩ := exists_of_any_toOption evaluated
  exact ⟨definitions, api, areRead, isApi, of_decide_eq_true failed⟩

end ApiWorkshop
