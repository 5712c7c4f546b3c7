import ApiWorkshop.Proofs.Api.Inspected
import ApiWorkshop.Proofs.Api.Regular
import ApiWorkshop.Proofs.Entries.Grouped
import ApiWorkshop.Proofs.Value.Equal

/-!
# Choices and the values beside them

Which values are told of as not being among their choices, for whole files.  The
values are told of exactly when no choice matches them as they are taken: choices are
taken as they were written, the values beside them with their dates as text.  All
that is written is looked at, unless another problem is told that hides it.
-/

namespace ApiWorkshop

/-- Whether something is not looked into on account of a problem. -/
def ProblemKind.hides : ProblemKind → Bool
  | duplicateSchema _ _ => true
  | duplicateEndpoint _ _ => true
  | fieldsNotAllowed _ => true
  | itemsNotObjects => true
  | fieldsDeclaredTwice => true
  | missingPlaceholder _ => true
  | _ => false

namespace Check

open Extract Selection
open Entry (Table)

variable {known : List String} {source : String}

/-! ## What is looked at -/

theorem map_eq_map_of_forall₂ {α β γ : Type} {isRead : α → β → Prop} {items : List α}
    {reads : List β} (areRead : List.Forall₂ isRead items reads) {image : α → γ}
    {readImage : β → γ} (same : ∀ {item read}, isRead item read → image item = readImage read) :
    items.map image = reads.map readImage := by
  induction areRead with
  | nil => rfl
  | cons first _ ih => rw [List.map_cons, List.map_cons, same first, ih]

theorem perm_flatMap_of_forall₂ {α β γ : Type} {isRead : α → β → Prop} {items : List α}
    {reads : List β} (areRead : List.Forall₂ isRead items reads) {first second : α → List γ}
    (perm : ∀ item read, isRead item read → read ∈ reads → (first item).Perm (second item)) :
    (items.flatMap first).Perm (items.flatMap second) := by
  induction areRead with
  | nil => exact .nil
  | cons isRead _ ih =>
      rw [List.flatMap_cons, List.flatMap_cons]
      exact (perm _ _ isRead List.mem_cons_self).append
        (ih fun item read isItem member => perm item read isItem (List.mem_cons_of_mem _ member))

/-- Nothing repeats another table if nothing does among what was read. -/
theorem firsts_eq_of_repeats {α β κ ι : Type} [DecidableEq κ] [DecidableEq ι]
    {isRead : Declared α → Declared β → Prop} {key : α → κ} {readKey : β → ι} {rename : ι → κ}
    (distinct : Function.Injective rename)
    (sameKey : ∀ {entry read}, isRead entry read → key entry.value = rename (readKey read.value))
    {entries : List (Declared α)} {reads : List (Declared β)}
    (areRead : List.Forall₂ isRead entries reads)
    (noRepeats : repeats (splitRepeats readKey [] reads) = []) :
    firsts (splitRepeats key [] entries) = entries := by
  have keys : (entries.map fun entry => key entry.value) =
      (reads.map fun read => readKey read.value).map rename := by
    rw [List.map_map]
    exact map_eq_map_of_forall₂ areRead sameKey
  apply firsts_of_repeats_eq_nil
  rw [repeats_eq_nil_iff_nodup, keys]
  exact (repeats_eq_nil_iff_nodup.mp noRepeats).map distinct

theorem isNone_foldItem (schema : Schema) :
    (foldItem schema).2.isNone = schema.items.all Field.isBareObject := by
  rw [foldItem]
  cases schema.items with
  | none => rfl
  | some item =>
      cases item with
      | object properties _ _ => cases properties <;> rfl
      | primitive _ _ | anyArray _ | array _ _ | reference _ _ => rfl

theorem hides_of_foldItem {schema : Schema} {kind : ProblemKind}
    (isFault : (foldItem schema).2 = some kind) : kind.hides = true := by
  rw [foldItem] at isFault
  split at isFault
  · contradiction
  · contradiction
  · exact Option.some.inj isFault ▸ rfl
  · exact Option.some.inj isFault ▸ rfl

/-- A schema takes its fields or has none if no problem hides them. -/
theorem takesFields_or_eq_nil {name : String} {path : KeyPath} {entries : Table} {read : Schema}
    (isRead : ReadsSchema name path entries read)
    (noHiding : ∀ problem ∈ checkSchema known source read, problem.kind.hides = false) :
    takesFields read.type entries = true ∨ entries.filter (!isAttribute read.type ·) = [] := by
  have keys := keys_fields isRead.fields
  have noFields (areNone : read.fields.isEmpty = true) :
      entries.filter (!isAttribute read.type ·) = [] := by
    rw [List.isEmpty_iff.mp areNone] at keys
    exact List.map_eq_nil_iff.mp keys.symm
  rw [checkSchema, List.forall_mem_append] at noHiding
  obtain ⟨-, noHiding⟩ := noHiding
  split at noHiding
  next isArray =>
    rw [takesFields_of_array isRead isArray, ← isNone_foldItem]
    rw [checkArraySchema] at noHiding
    split at noHiding
    next areNone => exact .inr (noFields areNone)
    next =>
      left
      cases isFault : (foldItem read).2 with
      | none => rfl
      | some kind =>
          have isHidden := noHiding _ (List.mem_append_left _
            (List.mem_map.mpr ⟨kind, Option.mem_toList.mpr isFault, rfl⟩))
          exact absurd (hides_of_foldItem isFault) (Bool.eq_false_iff.mp isHidden)
  next isObject =>
    rw [isObject]
    exact .inl rfl
  next type isPrimitive =>
    split at noHiding
    next areNone => exact .inr (noFields (Bool.and_eq_true_iff.mp areNone).1)
    next => exact Bool.noConfusion (noHiding _ (List.mem_singleton_self _))

/-- If every parameter has a placeholder, the placeholders choose all parameters. -/
theorem perm_placed {α : Type} {names : List String} {parameters : Entries String α}
    (distinct : (Entries.keys parameters).Nodup)
    (arePlaced : ∀ name ∈ Entries.keys parameters, name ∈ names) :
    (placed names parameters).Perm parameters := by
  have placedDistinct : (Entries.keys (placed names parameters)).Nodup := by
    rw [placed, Entries.keys_filterMap]
    exact (Entries.nodup_eraseDups names).filter _
  refine (List.perm_ext_iff_of_nodup placedDistinct.of_map distinct.of_map).mpr fun entry => ?_
  rw [← Entries.get?_eq_some_iff placedDistinct, ← Entries.get?_eq_some_iff distinct]
  rw [placed, Entries.get?_filterMap]
  split
  · rfl
  next notPlaced =>
    have isNew : entry.1 ∉ Entries.keys parameters := fun member =>
      notPlaced (List.mem_eraseDups.mpr (arePlaced entry.1 member))
    rw [Entries.get?_of_not_mem isNew]

/-- An endpoint with a placeholder for each path parameter has all its selections looked
at. -/
theorem perm_inEndpoint {path : KeyPath} {entries : Table} {read : Endpoint}
    (isRead : ReadsEndpoint path entries read)
    (distinct : (Entries.keys read.pathParameters).Nodup) {location : String}
    (noHiding : ∀ problem ∈ checkEndpoint known source location read,
      problem.kind.hides = false) (index : Nat) :
    (inEndpoint placed ⟨source, index, entries⟩).Perm
      (inEndpoint (fun _ parameters => parameters) ⟨source, index, entries⟩) := by
  have keys : Entries.keys (Entry.tableUnder "path_params" entries) =
      Entries.keys read.pathParameters :=
    map_eq_map_of_forall₂ (forall₂_of_parametersAt isRead.pathParameters) fun isRead =>
      isRead.1.symm
  have arePlaced : ∀ name ∈ Entries.keys read.pathParameters, name ∈ placeholders read.path := by
    intro name isDeclared
    by_contra notPlaced
    have isTold : problem (.missingPlaceholder name) source s!"{location} path_params.{name}" ∈
        checkEndpoint known source location read :=
      List.mem_append_right _ (List.mem_map.mpr
        ⟨name, List.mem_filter.mpr ⟨isDeclared, by simpa using notPlaced⟩, rfl⟩)
    exact Bool.noConfusion (noHiding _ isTold)
  rw [inEndpoint, inEndpoint, operation?_of_readsEndpoint isRead]
  exact ((perm_placed (keys ▸ distinct) (keys ▸ arePlaced)).flatMap_right _).append_left _

/-- The problems of all first endpoints are told of, and so is every other endpoint. -/
theorem noHiding_of_checkEndpoints
    {split : List (Declared (Nat × Endpoint) ⊕ (Declared (Nat × Endpoint) × String))}
    (noHiding : ∀ problem ∈ checkEndpoints known split, problem.kind.hides = false) :
    repeats split = [] ∧ ∀ declared ∈ firsts split, ∀ problem ∈
      checkEndpoint known declared.source
        (endpointLocation declared.value.1 declared.value.2) declared.value.2,
      problem.kind.hides = false := by
  induction split with
  | nil => simp [repeats, firsts]
  | cons head split ih =>
      cases head with
      | inl declared =>
          rw [checkEndpoints, List.forall_mem_append] at noHiding
          obtain ⟨ofFirst, ofRest⟩ := noHiding
          obtain ⟨noRepeats, ofFirsts⟩ := ih ofRest
          exact ⟨noRepeats, List.forall_mem_cons.mpr ⟨ofFirst, ofFirsts⟩⟩
      | inr repeated =>
          exact Bool.noConfusion (noHiding _ List.mem_cons_self)

/-- All selections are looked at if no problem hides something. -/
theorem perm_inspected {documents : List (String × Table)} {definitions : List Definition}
    (areRead : List.Forall₂ (fun document read => ReadsDefinition document.1 document.2 read)
      documents definitions) (areRegular : ∀ definition ∈ definitions, definition.Regular)
    (noHiding : ∀ problem ∈ checkStructure definitions, problem.kind.hides = false) :
    (inspected documents).Perm (written documents) := by
  rw [checkStructure, List.forall_mem_append, List.forall_mem_append] at noHiding
  obtain ⟨⟨ofNames, ofSchemas⟩, ofEndpoints⟩ := noHiding
  have noRepeats : repeats (splitSchemas definitions) = [] :=
    List.eq_nil_iff_forall_not_mem.mpr fun repeated isRepeat =>
      Bool.noConfusion (ofNames _ (List.mem_map_of_mem isRepeat))
  obtain ⟨noEndpointRepeats, ofFirsts⟩ := noHiding_of_checkEndpoints ofEndpoints
  rw [checkSchemas, splitSchemas, firsts_of_repeats_eq_nil noRepeats, List.forall_mem_flatMap]
    at ofSchemas
  rw [splitEndpoints, firsts_of_repeats_eq_nil noEndpointRepeats] at ofFirsts
  have schemas := forall₂_schemaTables areRead
  have endpoints := forall₂_endpointTables areRead
  have sameOperation {entry : Declared (Nat × Table)} {read : Declared (Nat × Endpoint)}
      (isRead : ReadsEndpointTable entry read) :
      operation? entry.value.2 = some (read.value.2.method, read.value.2.path) := by
    obtain ⟨-, -, _, isEndpoint⟩ := isRead
    exact operation?_of_readsEndpoint isEndpoint
  rw [inspected, written,
    firsts_eq_of_repeats Function.injective_id (fun isRead => isRead.2.1.symm) schemas noRepeats,
    firsts_eq_of_repeats (fun _ _ => Option.some.inj) sameOperation endpoints noEndpointRepeats]
  refine .append ?_ ?_
  · refine perm_flatMap_of_forall₂ schemas fun entry read isRead member => ?_
    obtain ⟨-, -, path, isSchema⟩ := isRead
    rw [inSchema, inSchema, schemaType?_of_schemaType isSchema.type]
    dsimp only
    obtain takes | noFields := takesFields_or_eq_nil isSchema (ofSchemas read member)
    · rw [takes]
    · rw [noFields, inFields, ite_self, ite_self]
  · have distinct : ∀ declared ∈ declaredEndpoints definitions,
        (Entries.keys declared.value.2.pathParameters).Nodup :=
      (forall_declaredEndpoints_iff fun endpoint =>
        (Entries.keys endpoint.pathParameters).Nodup).mpr
          fun definition member endpoint isEndpoint =>
            ((areRegular definition member).endpoints endpoint isEndpoint).distinct
    refine perm_flatMap_of_forall₂ endpoints fun entry read isRead member => ?_
    obtain ⟨sameSource, -, path, isEndpoint⟩ := isRead
    have ofEndpoint := ofFirsts read member
    rw [sameSource] at ofEndpoint
    exact perm_inEndpoint isEndpoint (distinct read member) ofEndpoint entry.value.1

/-- The checks of translations do not tell of choices. -/
theorem ofChoices_translationProblems
    (split : List (Declared Translation ⊕ (Declared Translation × String))) :
    ofChoices (split.flatMap translationProblems) = [] := by
  have isOther {kind : ProblemKind} (isSpan : kind.isSpan = true) : kind.isChoice = false := by
    cases kind <;> first | rfl | contradiction
  refine ofChoices_eq_nil (List.forall_mem_flatMap.mpr fun head _ => ?_)
  cases head with
  | inl declared => exact fun problem member => isOther (isSpan_of_mem_spanProblems problem member)
  | inr repeated => exact List.forall_mem_singleton.mpr rfl

end Check

namespace Selection

open Check Extract
open Entry (Table)

/-! ## Regular values -/

/-- A selection whose values have distinct keys in all their tables. -/
structure Regular (selection : Selection) : Prop where
  members : ∀ member ∈ selection.members, member.Regular Scalar.IsRead
  value : selection.value.Regular Scalar.IsRead

theorem regular_ofTable {source location : String} {entries : Table}
    (regular : (Value.table entries).Regular Scalar.IsRead) :
    ∀ selection ∈ ofTable source location entries, selection.Regular := by
  rw [ofTable]
  split
  next member members isFound =>
    have areMembers := (regular.get? isFound).items
    rw [List.forall_mem_append, List.forall_mem_map, List.forall_mem_map]
    constructor
    · exact fun value isFallback =>
        ⟨areMembers, regular.get? (Option.mem_toList.mp isFallback)⟩
    · exact fun value isSample =>
        ⟨areMembers, regular.get? (Option.mem_filter_iff.mp (Option.mem_toList.mp isSample)).1⟩
  next => simp

mutual

theorem regular_inField : ∀ {source location : String} {value : Value},
    value.Regular Scalar.IsRead →
      ∀ selection ∈ inField source location value, selection.Regular
  | source, location, .table entries, regular => by
      rw [inField, List.forall_mem_append, List.forall_mem_append]
      exact ⟨regular_ofTable regular, regular_inItems regular.entries,
        regular_inProperties regular.entries⟩
  | _, _, .array _, _ => by simp [inField]
  | _, _, .scalar _, _ => by simp [inField]

theorem regular_inItems : ∀ {source location : String} {entries : List (String × Value)},
    (∀ entry ∈ entries, entry.2.Regular Scalar.IsRead) →
      ∀ selection ∈ inItems source location entries, selection.Regular
  | _, _, [], _ => by simp [inItems]
  | source, location, (key, value) :: entries, areRegular => by
      obtain ⟨isRegular, restRegular⟩ := List.forall_mem_cons.mp areRegular
      rw [inItems]
      split
      · exact regular_inField isRegular
      · exact regular_inItems restRegular

theorem regular_inProperties : ∀ {source location : String} {entries : List (String × Value)},
    (∀ entry ∈ entries, entry.2.Regular Scalar.IsRead) →
      ∀ selection ∈ inProperties source location entries, selection.Regular
  | _, _, [], _ => by simp [inProperties]
  | source, location, (key, value) :: entries, areRegular => by
      obtain ⟨isRegular, restRegular⟩ := List.forall_mem_cons.mp areRegular
      rw [inProperties.eq_def]
      dsimp only
      split
      · cases value with
        | table properties => exact regular_inFields isRegular.entries
        | array _ | scalar _ => simp
      · exact regular_inProperties restRegular

theorem regular_inFields : ∀ {source location : String} {entries : List (String × Value)},
    (∀ entry ∈ entries, entry.2.Regular Scalar.IsRead) →
      ∀ selection ∈ inFields source location entries, selection.Regular
  | _, _, [], _ => by simp [inFields]
  | source, location, (name, value) :: entries, areRegular => by
      obtain ⟨isRegular, restRegular⟩ := List.forall_mem_cons.mp areRegular
      rw [inFields, List.forall_mem_append]
      exact ⟨regular_inField isRegular, regular_inFields restRegular⟩

end

theorem regular_inSchema {takes : JsonType → Table → Bool} {source name : String}
    {entries : Table} (regular : (Value.table entries).Regular Scalar.IsRead) :
    ∀ selection ∈ inSchema takes ⟨source, name, entries⟩, selection.Regular := by
  rw [inSchema]
  split
  next => simp
  next type _ =>
    have attributes := regular.filter (isAttribute type)
    rw [List.forall_mem_append, List.forall_mem_append]
    refine ⟨⟨regular_ofTable attributes, regular_inItems attributes.entries⟩, ?_⟩
    split
    · exact regular_inFields (regular.filter (!isAttribute type ·)).entries
    · simp

theorem regular_inParameters {source : String} {place : String → String} {parameters : Table}
    (areRegular : ∀ entry ∈ parameters, entry.2.Regular Scalar.IsRead) :
    ∀ selection ∈ inParameters source place parameters, selection.Regular := by
  rw [inParameters, List.forall_mem_flatMap]
  exact fun entry member => regular_ofTable (regular_entriesOf (areRegular entry member))

theorem mem_of_mem_placed {α : Type} {names : List String} {parameters : Entries String α}
    {entry : String × α} (member : entry ∈ placed names parameters) : entry ∈ parameters := by
  obtain ⟨name, -, isFound⟩ := List.mem_filterMap.mp member
  obtain ⟨parameter, isParameter, rfl⟩ := Option.map_eq_some_iff.mp isFound
  exact Entries.mem_of_get? isParameter

theorem regular_inEndpoint {source : String} {index : Nat} {entries : Table}
    (regular : (Value.table entries).Regular Scalar.IsRead) :
    ∀ selection ∈ inEndpoint placed ⟨source, index, entries⟩, selection.Regular := by
  rw [inEndpoint]
  split
  next => simp
  next =>
    rw [List.forall_mem_append]
    constructor
    · exact regular_inParameters (regular_tableUnder regular "query").entries
    · exact regular_inParameters fun entry member =>
        (regular_tableUnder regular "path_params").entries entry (mem_of_mem_placed member)

/-- In documents that were decoded, all selections are regular. -/
theorem regular_inspected {documents : List (String × Table)}
    (areRegular : ∀ document ∈ documents, (Value.table document.2).Regular Scalar.IsRead) :
    ∀ selection ∈ inspected documents, selection.Regular := by
  have schemas : ∀ declared ∈ schemaTables documents,
      (Value.table declared.value.2).Regular Scalar.IsRead := by
    rw [schemaTables, List.forall_mem_flatMap]
    intro document member
    rw [List.forall_mem_map]
    exact fun entry isSchema => regular_entriesOf
      ((regular_tableUnder (areRegular document member) "schemas").entries entry isSchema)
  have endpoints : ∀ declared ∈ endpointTables documents,
      (Value.table declared.value.2).Regular Scalar.IsRead := by
    rw [endpointTables, List.forall_mem_flatMap]
    intro document member
    rw [List.forall_mem_map]
    exact fun numbered isEndpoint => regular_entriesOf
      (regular_itemsUnder (areRegular document member) "endpoints" numbered.1
        (List.fst_mem_of_mem_zipIdx isEndpoint))
  rw [inspected, List.forall_mem_append, List.forall_mem_flatMap, List.forall_mem_flatMap]
  constructor
  · exact fun declared isFirst =>
      regular_inSchema (schemas declared (mem_of_mem_firsts _ _ isFirst))
  · exact fun declared isFirst =>
      regular_inEndpoint (endpoints declared (mem_of_mem_firsts _ _ isFirst))

theorem regular_of_decoded {files : List SourceText} {documents : List (String × Table)}
    (areDecoded : List.Forall₂ (fun file document => document.1 = file.name ∧
      Toml.decode file.name file.text = .ok document.2) files documents) :
    ∀ document ∈ documents, (Value.table document.2).Regular Scalar.IsRead := by
  induction areDecoded with
  | nil => simp
  | cons isDecoded _ ih =>
      exact List.forall_mem_cons.mpr ⟨Toml.regular_of_decode isDecoded.2, ih⟩

/-- A selection is held exactly if a choice matches its value with the dates as text. -/
theorem isHeld_iff {selection : Selection} (regular : selection.Regular) :
    selection.isHeld = true ↔
      ∃ member ∈ selection.members, member.Matches selection.value.plain :=
  Value.isMember_iff regular.members (Value.regular_plain regular.value)

end Selection

open Check Selection

/-- A value beside choices is told of exactly if no choice matches it with its dates as
text.  For a value without dates one equal choice is enough, and it is needed unless
truth values stand inside arrays or tables.  All that is written is looked at, unless
a problem that hides something is told. -/
theorem problems_tell_choices {files : List SourceText} {definitions : List Definition}
    (areRead : Definition.readAll files = .ok definitions) {found : List Problem}
    (areFound : problems definitions = .ok found) :
    ∃ documents : List (String × Entry.Table),
      List.Forall₂ (fun file document => document.1 = file.name ∧
        Toml.decode file.name file.text = .ok document.2) files documents ∧
      ofChoices found = told (inspected documents) ∧
      ((∀ problem ∈ found, problem.kind.hides = false) →
        (inspected documents).Perm (written documents)) ∧
      ∀ selection ∈ inspected documents,
        (selection.isHeld = true ↔
          ∃ member ∈ selection.members, member.Matches selection.value.plain) ∧
        ((selection.value.All fun part => part.isDated = false) →
          ((∃ member ∈ selection.members, member.Equal selection.value) →
            selection.isHeld = true) ∧
          (selection.value.HasNoInnerBool →
            (∀ member ∈ selection.members, member.HasNoInnerBool) →
            (selection.isHeld = true ↔
              ∃ member ∈ selection.members, member.Equal selection.value))) := by
  obtain ⟨documents, areDecoded, areDefinitions⟩ := Definition.exists_documents areRead
  obtain ⟨-, rfl⟩ := problems_eq_ok_iff.mp areFound
  have areRegular := regular_of_decoded areDecoded
  refine ⟨documents, areDecoded, ?_, fun noHiding => ?_, fun selection member => ?_⟩
  · rw [ofChoices_append, ofChoices_checkStructure areDefinitions, ofChoices_translationProblems,
      List.append_nil]
  · exact perm_inspected areDefinitions (Definition.regular_of_readAll areRead)
      (List.forall_mem_append.mp noHiding).1
  · have isHeld := isHeld_iff (regular_inspected areRegular selection member)
    refine ⟨isHeld, fun undated => ?_⟩
    rw [isHeld, Value.plain_of_undated undated]
    refine ⟨fun ⟨choice, isChoice, isEqual⟩ => ⟨choice, isChoice, isEqual.matches⟩, ?_⟩
    exact fun noBool noOtherBool => exists_congr fun choice =>
      and_congr_right fun isChoice => Value.matches_iff_equal (noOtherBool choice isChoice) noBool

/-- A file with a number that is among its choices and a text that is not. -/
def choicesFile : SourceText :=
  ⟨"a.toml", Text.ofLines ["[schemas.s]",
    "size = \x7b type = \"number\", enum = [1, 2], default = 2.0 \x7d",
    "unit = \x7b type = \"string\", enum = [\"kg\"], example = \"mm\" \x7d"]⟩

/-- Of all that is written only the text is told of. -/
theorem problems_tell_choices_of_choicesFile :
    ∃ definitions found, Definition.readAll [choicesFile] = .ok definitions ∧
      problems definitions = .ok found ∧
      ∃ documents, (inspected documents).Perm (written documents) ∧
        told (inspected documents) =
          [⟨.sampleNotChoice (.string "mm"), "a.toml", "schemas.s.unit.example"⟩] := by
  have evaluated : ((Definition.readAll [choicesFile]).toOption.any fun definitions =>
      (problems definitions).toOption.any fun found =>
        decide (found =
          [⟨.sampleNotChoice (.string "mm"), "a.toml", "schemas.s.unit.example"⟩])) = true := by
    decide +kernel
  obtain ⟨definitions, areRead, evaluated⟩ := exists_of_any_toOption evaluated
  obtain ⟨found, areFound, evaluated⟩ := exists_of_any_toOption evaluated
  obtain ⟨documents, -, areTold, noHiding, -⟩ := problems_tell_choices areRead areFound
  rw [of_decide_eq_true evaluated] at areTold noHiding
  exact ⟨definitions, found, areRead, areFound, documents,
    noHiding (List.forall_mem_singleton.mpr rfl), areTold.symm⟩

/-- A file with a date that may only be one day and is that day by default. -/
def fixedDayFile : SourceText :=
  ⟨"a.toml", Text.ofLines ["[schemas.s]",
    "day = \x7b type = \"string\", enum = [2024-01-01], default = 2024-01-01 \x7d"]⟩

/-- The day is told of although it equals its only choice. -/
theorem equal_choice_is_told :
    ∃ definitions found document selection,
      Definition.readAll [fixedDayFile] = .ok definitions ∧ problems definitions = .ok found ∧
      Toml.decode fixedDayFile.name fixedDayFile.text = .ok document ∧
      selection ∈ written [(fixedDayFile.name, document)] ∧
      (∃ member ∈ selection.members, member.Equal selection.value) ∧ selection.problem ∈ found := by
  have evaluated : ((Definition.readAll [fixedDayFile]).toOption.any fun definitions =>
      (problems definitions).toOption.any fun found =>
        (Toml.decode fixedDayFile.name fixedDayFile.text).toOption.any fun document =>
          (written [(fixedDayFile.name, document)]).any fun selection =>
            decide (selection.members = [selection.value] ∧
              selection.value = .scalar (.date ⟨2024, 1, 1, by decide⟩) ∧
              selection.problem ∈ found)) = true := by
    decide +kernel
  obtain ⟨definitions, areRead, evaluated⟩ := exists_of_any_toOption evaluated
  obtain ⟨found, areFound, evaluated⟩ := exists_of_any_toOption evaluated
  obtain ⟨document, isDecoded, evaluated⟩ := exists_of_any_toOption evaluated
  obtain ⟨selection, isWritten, evaluated⟩ := List.any_eq_true.mp evaluated
  obtain ⟨isOnly, isDay, isTold⟩ := of_decide_eq_true evaluated
  refine ⟨definitions, found, document, selection, areRead, areFound, isDecoded, isWritten,
    ⟨selection.value, ?_, ?_⟩, isTold⟩
  · exact isOnly ▸ List.mem_singleton_self _
  · rw [isDay]
    exact .scalar rfl

end ApiWorkshop
