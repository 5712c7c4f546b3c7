import ApiWorkshop.Proofs.Api.Selections
import ApiWorkshop.Proofs.Api.Faultless

/-!
# Which selections are looked at

Not every selection that is written is looked at.  A table that repeats another one is
not read any further, a path parameter counts only if the path has a placeholder for
it, and the fields of a schema count only if it is an object or an array that they can
be moved onto.  Of what is looked at, each selection that is not held is told.
-/

namespace ApiWorkshop

/-- Whether a field is an object without properties. -/
def Field.isBareObject : Field → Bool
  | .object [] _ _ => true
  | _ => false

namespace Selection

open Check Extract
open Entry (Table)

/-! ## What is written in documents -/

/-- The type that a schema table has; without a type name it is an object. -/
def schemaType? (entries : Table) : Option JsonType :=
  JsonType.ofName? ((stringIn? "type" entries).getD "object")

/-- Whether an object without properties is declared. -/
def isBareObject : Value → Bool
  | .scalar (.string name) => name == "object"
  | .table entries =>
      stringIn? "type" entries == some "object" &&
        (Entry.tableUnder "properties" entries).isEmpty
  | _ => false

/-- Whether the fields of a schema table are looked at.  An array takes them if they are
not at odds with its items. -/
def takesFields (type : JsonType) (entries : Table) : Bool :=
  match type with
  | .primitive _ => false
  | .object => true
  | .array => (Entries.get? "items" (entries.filter (isAttribute type))).all isBareObject

/-- The selections of a schema table, of its items, and of its fields if they are
taken.  The fields of an array stand below its items. -/
def inSchema (takes : JsonType → Table → Bool) : Declared (String × Table) → List Selection
  | ⟨source, name, entries⟩ =>
      match schemaType? entries with
      | none => []
      | some type =>
          let location := s!"schemas.{name}"
          let attributes := entries.filter (isAttribute type)
          let below := if type = .array then s!"{location}.items" else location
          ofTable source location attributes ++ inItems source location attributes ++
            if takes type entries then
              inFields source below (entries.filter (!isAttribute type ·))
            else
              []

/-- The method and the path of an endpoint table. -/
def operation? (entries : Table) : Option (Method × String) := do
  let name ← stringIn? "method" entries
  let path ← stringIn? "path" entries
  let method ← method? name
  some (method, path)

/-- The entries under some names, in the order of the names. -/
def placed {α : Type} (names : List String) (parameters : Entries String α) : Entries String α :=
  names.eraseDups.filterMap fun name =>
    (Entries.get? name parameters).map fun parameter => (name, parameter)

/-- The selections of named parameters, each at its place. -/
def inParameters (source : String) (place : String → String) (parameters : Table) :
    List Selection :=
  parameters.flatMap fun entry => ofTable source (place entry.1) (Entry.entriesOf entry.2)

/-- The selections of the parameters of an endpoint table.  The path parameters are
chosen from the declared ones by the placeholders of the path. -/
def inEndpoint (choose : List String → Table → Table) : Declared (Nat × Table) → List Selection
  | ⟨source, index, entries⟩ =>
      match operation? entries with
      | none => []
      | some (method, path) =>
          let location := endpointLocation index { path, method }
          inParameters source (fun name => s!"{location} query.{name}")
              (Entry.tableUnder "query" entries) ++
            inParameters source (fun name => s!"{location} path_params.{name}")
              (choose (placeholders path) (Entry.tableUnder "path_params" entries))

/-- The schema tables of all documents. -/
def schemaTables (documents : List (String × Table)) : List (Declared (String × Table)) :=
  documents.flatMap fun (source, document) =>
    (Entry.tableUnder "schemas" document).map fun (name, value) =>
      ⟨source, name, Entry.entriesOf value⟩

/-- The endpoint tables of all documents, each with its position in its document. -/
def endpointTables (documents : List (String × Table)) : List (Declared (Nat × Table)) :=
  documents.flatMap fun (source, document) =>
    (Entry.itemsUnder "endpoints" document).zipIdx.map fun (value, index) =>
      ⟨source, index, Entry.entriesOf value⟩

/-- All selections that are written in schemas and parameters. -/
def written (documents : List (String × Table)) : List Selection :=
  (schemaTables documents).flatMap (inSchema fun _ _ => true) ++
    (endpointTables documents).flatMap (inEndpoint fun _ parameters => parameters)

/-- The selections that are looked at. -/
def inspected (documents : List (String × Table)) : List Selection :=
  (firsts (splitRepeats Prod.fst [] (schemaTables documents))).flatMap (inSchema takesFields) ++
    (firsts (splitRepeats (fun entry => operation? entry.2) []
      (endpointTables documents))).flatMap (inEndpoint placed)

end Selection

namespace Check

open Extract Selection
open Entry (Table)

variable {known : List String} {source : String}

/-- What the checks of declarations tell is put together from what is written for each
of them. -/
theorem ofChoices_flatMap_eq_told {α β : Type} {isRead : α → β → Prop} {items : List α}
    {reads : List β} (areRead : List.Forall₂ isRead items reads) {select : α → List Selection}
    {check : β → List Problem}
    (tells : ∀ item read, isRead item read → ofChoices (check read) = told (select item)) :
    ofChoices (reads.flatMap check) = told (items.flatMap select) := by
  induction areRead with
  | nil => rfl
  | cons first _ ih =>
      rw [List.flatMap_cons, List.flatMap_cons, ofChoices_append, told_append,
        tells _ _ first, ih]

/-! ## Schemas -/

theorem stringIn?_of_get? {key text : String} {entries : Table}
    (isText : Entries.get? key entries = some (.string text)) :
    stringIn? key entries = some text := by
  rw [stringIn?, isText]

theorem isBareObject_shorthand (name : String) :
    (shorthand name {}).isBareObject = (name == "object") := by
  rw [shorthand]
  cases isJson : JsonType.ofName? name with
  | none =>
      have notObject : name ≠ "object" := by
        rintro rfl
        contradiction
      simp [Field.isBareObject, notObject]
  | some type =>
      obtain rfl := JsonType.name_of_ofName? isJson
      cases type with
      | array => decide
      | object => decide
      | primitive type => cases type <;> decide

/-- Whether an object without properties is declared shows before anything is read. -/
theorem isBareObject_eq {path : KeyPath} {value : Value} {read : Field}
    (isRead : field path value = .ok read) :
    Selection.isBareObject value = read.isBareObject := by
  cases value with
  | array _ => simp [field, misplaced] at isRead
  | scalar part =>
      cases part with
      | string name =>
          rw [field] at isRead
          exact Except.ok.inj isRead ▸ (isBareObject_shorthand name).symm
      | null | bool _ | int _ | float _ | dateTime _ | date _ | time _ =>
          simp [field, misplaced] at isRead
  | table entries =>
      obtain ⟨shape, notes, isShape, -, -, rfl⟩ := exists_shape isRead
      rw [Selection.isBareObject]
      cases isShape with
      | schema name noType => simp [stringIn?, noType, withNotes, Field.isBareObject]
      | @reference name isType notJson =>
          have notObject : name ≠ "object" := by
            rintro rfl
            contradiction
          simp [stringIn?_of_get? isType, notObject, withNotes, Field.isBareObject]
      | @primitive type isType =>
          have notObject : type.name ≠ "object" := by cases type <;> decide
          simp [stringIn?_of_get? isType, notObject, withNotes, Field.isBareObject]
      | anyArray isType _ | array isType _ =>
          simp [stringIn?_of_get? isType, withNotes, Field.isBareObject]
      | @object isType properties _ areProperties =>
          obtain ⟨path, areFields⟩ := fields_of_propertiesIn areProperties
          have keys := keys_fields areFields
          rw [stringIn?_of_get? isType, withNotes]
          cases properties with
          | nil => simpa [Field.isBareObject] using keys.symm
          | cons property properties =>
              cases areEntries : Entry.tableUnder "properties" entries with
              | nil => simp [areEntries] at keys
              | cons entry rest => rfl

/-- The item that takes the fields of its schema tells of its own choices and of the
fields. -/
theorem ofChoices_checkField_foldedItem (owner location : String) (schema : Schema) :
    ofChoices (checkField known owner source location (foldedItem schema)) =
      ofChoices (checkChoices ((schema.items.map Field.notes).getD {}).choices
        ((schema.items.map Field.notes).getD {}).fallback
        ((schema.items.map Field.notes).getD {}).sample source location) ++
      ofChoices (checkFields known owner source location schema.fields) := by
  simp [foldedItem, checkField]

/-- The fields of an array schema are told of below its items, if they can be moved
onto them. -/
theorem ofChoices_checkArraySchema (location : String) (schema : Schema) :
    ofChoices (checkArraySchema known source location schema) =
      (schema.items.toList.flatMap fun item =>
        ofChoices (checkField known schema.name source s!"{location}.items" item)) ++
      if schema.items.all Field.isBareObject then
        ofChoices (checkFields known schema.name source s!"{location}.items" schema.fields)
      else
        [] := by
  have ofBare (required : List String) (notes : Notes) :
      ofChoices (checkField known schema.name source s!"{location}.items"
        (.object [] required notes)) =
      ofChoices (checkChoices notes.choices notes.fallback notes.sample source
        s!"{location}.items") := by
    simp [checkField, checkFields]
  rw [checkArraySchema]
  split
  next noFields =>
    have noOther : ofChoices (if schema.required.isEmpty then [] else
        [problem .requiredWithoutFields source s!"{location}.required"]) = [] := by
      split <;> rfl
    rw [ofChoices_append, noOther, List.isEmpty_iff.mp noFields, checkFields]
    cases schema.items <;> simp
  next =>
    dsimp only
    rw [ofChoices_append, foldItem]
    cases areItems : schema.items with
    | none =>
        simp [ofChoices_checkField_foldedItem, areItems, checkChoices]
    | some item =>
        cases item with
        | object properties required notes =>
            cases properties with
            | nil =>
                simp [ofChoices_checkField_foldedItem, areItems, ofBare, Field.isBareObject,
                  Field.notes]
            | cons property properties =>
                simp [ProblemKind.isChoice, Field.isBareObject]
        | primitive _ _ | anyArray _ | array _ _ | reference _ _ =>
            simp [ProblemKind.isChoice, Field.isBareObject]

theorem schemaType?_of_schemaType {entries : Table} {path : KeyPath} {type : JsonType}
    (isType : schemaType entries path = .ok type) : schemaType? entries = some type := by
  rw [schemaType] at isType
  rw [schemaType?]
  split at isType
  next found isFound => rw [isFound, Except.ok.inj isType]
  next => contradiction

/-- A schema table takes its fields exactly if they can be moved onto its items. -/
theorem takesFields_of_array {name : String} {path : KeyPath} {entries : Table} {read : Schema}
    (isRead : ReadsSchema name path entries read) (isArray : read.type = .array) :
    takesFields read.type entries = read.items.all Field.isBareObject := by
  have items := isRead.items
  rw [isArray] at items ⊢
  rw [takesFields]
  split at items
  next noItems => rw [noItems, items, Option.all_none, Option.all_none]
  next value isValue =>
    obtain ⟨item, isItem, areItems⟩ := items
    rw [isValue, areItems, Option.all_some, Option.all_some, isBareObject_eq isItem]

/-- A default declares a field of that name and says nothing of the schema. -/
theorem plain?_default_attributes (type : JsonType) (entries : Table) :
    Entry.plain? (entries.filter (isAttribute type)) "default" = none := by
  have noDefault : Entries.get? "default" (entries.filter (isAttribute type)) = none := by
    refine Entries.get?_of_not_mem fun member => ?_
    obtain ⟨⟨key, value⟩, inFilter, rfl⟩ := List.mem_map.mp member
    have isDefault := (List.mem_filter.mp inFilter).2
    simp [isAttribute, reservedKeys] at isDefault
  rw [Entry.plain?, noDefault, Option.map_none]

theorem ofChoices_items {name : String} {path : KeyPath} {entries : Table} {read : Schema}
    (isRead : ReadsSchema name path entries read) (owner location : String) :
    (read.items.toList.flatMap fun item =>
      ofChoices (checkField known owner source s!"{location}.items" item)) =
        told (inItems source location (entries.filter (isAttribute read.type))) := by
  have items := isRead.items
  rw [inItems_eq]
  split at items
  next noItems => rw [items, noItems]; rfl
  next value isValue =>
    obtain ⟨item, isItem, areItems⟩ := items
    rw [areItems, isValue]
    exact (List.append_nil _).trans (ofChoices_checkField isItem)

/-- Checking a schema tells of the selections of its table. -/
theorem ofChoices_checkSchema {name : String} {path : KeyPath} {entries : Table} {read : Schema}
    (isRead : ReadsSchema name path entries read) :
    ofChoices (checkSchema known source read) =
      told (inSchema takesFields ⟨source, name, entries⟩) := by
  have ofOwn (location : String) :
      ofChoices (checkChoices read.choices none read.sample source location) =
        told (ofTable source location (entries.filter (isAttribute read.type))) := by
    rw [← ofChoices_checkChoices _ _ isRead.choices, isRead.sample, plain?_default_attributes]
  have ofFields (location : String) :
      ofChoices (checkFields known read.name source location read.fields) =
        told (inFields source location (entries.filter (!isAttribute read.type ·))) :=
    ofChoices_checkFields isRead.fields
  have noItems (notArray : read.type ≠ .array) (location : String) :
      inItems source location (entries.filter (isAttribute read.type)) = [] := by
    rw [inItems_eq, get?_items_attributes notArray]
  rw [inSchema, schemaType?_of_schemaType isRead.type, ← isRead.name]
  dsimp only [checkSchema]
  generalize s!"schemas.{read.name}" = location
  rw [ofChoices_append, ofOwn, told_append, told_append, List.append_assoc]
  congr 1
  split
  next isArray =>
    rw [ofChoices_checkArraySchema, ofFields, ofChoices_items isRead,
      ← takesFields_of_array isRead isArray, if_pos isArray]
    split <;> rfl
  next isObject =>
    have notArray : read.type ≠ .array := by simp [isObject]
    have takes : takesFields read.type entries = true := by rw [isObject, takesFields]
    rw [ofChoices_append, ofChoices_checkRequired, List.nil_append, ofFields, noItems notArray,
      told_nil, List.nil_append, if_neg notArray, if_pos takes]
  next type isPrimitive =>
    have notArray : read.type ≠ .array := by simp [isPrimitive]
    have takes : takesFields read.type entries = false := by rw [isPrimitive, takesFields]
    rw [noItems notArray, takes]
    split <;> simp [ProblemKind.isChoice]

/-! ## Endpoints -/

/-- Checking a parameter tells of the selections of its table. -/
theorem ofChoices_checkParameter {path : KeyPath} {value : Value} {read : Parameter}
    (isRead : parameter path value = .ok read) (location : String) :
    ofChoices (checkParameter known source location read) =
      told (ofTable source location (Entry.entriesOf value)) := by
  have ofNotes : ofChoices (checkParameter known source location read) =
      ofChoices (checkChoices read.notes.choices read.notes.fallback read.notes.sample source
        location) := by
    rw [checkParameter, ofChoices_append]
    split
    · exact List.append_nil _
    · split <;> exact List.append_nil _
  rw [ofNotes]
  obtain ⟨name, rfl, noNotes⟩ | ⟨entries, rfl, areChoices, isFallback, isSample⟩ :=
    notes_of_parameter isRead
  · rw [noNotes]
    rfl
  · rw [isFallback, isSample]
    exact ofChoices_checkChoices location entries (Entry.choices_of_array? areChoices)

theorem ofChoices_parameters {entries : Table} {declared : Entries String Parameter}
    (areRead : List.Forall₂ ReadsParameter entries declared) (place : String → String) :
    ofChoices (declared.flatMap fun entry =>
      checkParameter known source (place entry.1) entry.2) =
        told (inParameters source place entries) := by
  refine ofChoices_flatMap_eq_told areRead fun entry read isRead => ?_
  obtain ⟨sameName, path, isParameter⟩ := isRead
  rw [sameName, ofChoices_checkParameter isParameter]

theorem placed_cons {α : Type} (name : String) (names : List String)
    (parameters : Entries String α) :
    placed (name :: names) parameters =
      ((Entries.get? name parameters).map fun parameter => (name, parameter)).toList ++
        placed (names.filter (!· == name)) parameters := by
  rw [placed, List.eraseDups_cons, placed, List.filterMap_cons]
  cases Entries.get? name parameters <;> rfl

/-- The placeholders that were not seen before are looked at once, each with the
parameter declared for it. -/
theorem ofChoices_checkPlaceholders (location : String) (parameters : Entries String Parameter)
    (seen names : List String) :
    ofChoices (checkPlaceholders known source location parameters seen names) =
      ofChoices ((placed (names.filter (!seen.contains ·)) parameters).flatMap fun entry =>
        checkParameter known source s!"{location} path_params.{entry.1}" entry.2) := by
  induction names generalizing seen with
  | nil => rfl
  | cons name names ih =>
      rw [checkPlaceholders]
      split
      next isSeen =>
        rw [ofChoices_cons, List.filter_cons_of_neg (by simpa using isSeen), ← ih]
        rfl
      next isNew =>
        have rest : (names.filter (!seen.contains ·)).filter (!· == name) =
            names.filter (!(name :: seen).contains ·) := by
          rw [List.filter_filter]
          refine List.filter_congr fun other _ => ?_
          by_cases same : other = name <;> simp [same]
        rw [List.filter_cons_of_pos (by simpa using isNew), placed_cons, List.flatMap_append,
          rest, ofChoices_append, ofChoices_append, ih]
        congr 1
        cases Entries.get? name parameters <;> simp

/-- Parameters that were read one by one are found one by one. -/
theorem forall₂_placed {entries : Table} {declared : Entries String Parameter}
    (areRead : List.Forall₂ ReadsParameter entries declared) (names : List String) :
    List.Forall₂ ReadsParameter (placed names entries) (placed names declared) := by
  have found (name : String) : Option.Rel ReadsParameter
      ((Entries.get? name entries).map fun value => (name, value))
      ((Entries.get? name declared).map fun parameter => (name, parameter)) := by
    induction areRead with
    | nil => exact .none
    | @cons entry read _ _ isRead _ ih =>
        obtain ⟨sameName, path, isParameter⟩ := isRead
        rw [Entries.get?, Entries.get?, sameName]
        split
        · exact .some ⟨rfl, path, isParameter⟩
        · exact ih
  have same : List.Forall₂ Eq names.eraseDups names.eraseDups :=
    List.forall₂_same.mpr fun _ _ => rfl
  exact List.rel_filterMap (fun name _ isSame => isSame ▸ found name) same

theorem operation?_of_readsEndpoint {path : KeyPath} {entries : Table} {read : Endpoint}
    (isRead : ReadsEndpoint path entries read) :
    operation? entries = some (read.method, read.path) := by
  obtain ⟨name, isName, isMethod⟩ := isRead.method
  simp [operation?, stringIn?_of_get? isName, stringIn?_of_get? isRead.url, isMethod]

/-- Checking an endpoint tells of the selections of its parameters. -/
theorem ofChoices_checkEndpoint {path : KeyPath} {entries : Table} {read : Endpoint}
    (isRead : ReadsEndpoint path entries read) (index : Nat) :
    ofChoices (checkEndpoint known source (endpointLocation index read) read) =
      told (inEndpoint placed ⟨source, index, entries⟩) := by
  have ofBody :
      ofChoices (checkBody known source (endpointLocation index read) read.body) = [] := by
    cases read.body with
    | none => rfl
    | some body => rw [checkBody]; split <;> rfl
  have noUnplaced (names : List String) (place : String → String) :
      ofChoices (names.map fun name => problem (.missingPlaceholder name) source (place name)) =
        [] :=
    ofChoices_eq_nil (List.forall_mem_map.mpr fun _ _ => rfl)
  have noneSeen : (placeholders read.path).filter (!([] : List String).contains ·) =
      placeholders read.path := List.filter_eq_self.mpr fun _ _ => rfl
  have query := forall₂_of_parametersAt isRead.query
  have pathParameters :=
    forall₂_placed (forall₂_of_parametersAt isRead.pathParameters) (placeholders read.path)
  rw [inEndpoint, operation?_of_readsEndpoint isRead, checkEndpoint]
  dsimp only
  rw [ofChoices_append, ofChoices_append, ofChoices_append, ofBody, noUnplaced, told_append,
    List.nil_append, List.append_nil, ofChoices_checkPlaceholders, noneSeen]
  exact congrArg₂ (· ++ ·) (ofChoices_parameters query _) (ofChoices_parameters pathParameters _)

/-! ## Documents -/

/-- A schema and the table that it is read from. -/
def ReadsSchemaTable (entry : Declared (String × Table)) (read : Declared (String × Schema)) :
    Prop :=
  read.source = entry.source ∧ read.value.1 = entry.value.1 ∧
    ∃ path, ReadsSchema entry.value.1 path entry.value.2 read.value.2

/-- An endpoint and the table that it is read from. -/
def ReadsEndpointTable (entry : Declared (Nat × Table)) (read : Declared (Nat × Endpoint)) : Prop :=
  read.source = entry.source ∧ read.value.1 = entry.value.1 ∧
    ∃ path, ReadsEndpoint path entry.value.2 read.value.2

theorem forall₂_schemaTables {documents : List (String × Table)} {definitions : List Definition}
    (areRead : List.Forall₂ (fun document read => ReadsDefinition document.1 document.2 read)
      documents definitions) :
    List.Forall₂ ReadsSchemaTable (schemaTables documents) (declaredSchemas definitions) := by
  refine List.rel_flatMap areRead fun document read isRead => ?_
  rw [List.forall₂_map_left_iff, List.forall₂_map_right_iff]
  refine isRead.schemas.imp fun entry declared => ?_
  rintro ⟨sameName, path, isSchema⟩
  exact ⟨isRead.source, sameName, path, readsSchema isSchema⟩

theorem forall₂_zipIdx {α β : Type} {isRead : α → β → Prop} {items : List α} {reads : List β}
    (areRead : List.Forall₂ isRead items reads) (index : Nat) :
    List.Forall₂ (fun item read => isRead item.1 read.1 ∧ read.2 = item.2)
      (items.zipIdx index) (reads.zipIdx index) := by
  induction areRead generalizing index with
  | nil => exact .nil
  | cons first _ ih => exact .cons ⟨first, rfl⟩ (ih (index + 1))

theorem forall₂_endpointTables {documents : List (String × Table)}
    {definitions : List Definition}
    (areRead : List.Forall₂ (fun document read => ReadsDefinition document.1 document.2 read)
      documents definitions) :
    List.Forall₂ ReadsEndpointTable (endpointTables documents) (declaredEndpoints definitions) := by
  refine List.rel_flatMap areRead fun document read isRead => ?_
  rw [List.forall₂_map_left_iff, List.forall₂_map_right_iff]
  refine (forall₂_zipIdx isRead.endpoints 0).imp fun entry declared => ?_
  rintro ⟨⟨fileName, path, isEndpoint⟩, sameIndex⟩
  exact ⟨isRead.source, sameIndex, path, readsEndpoint isEndpoint⟩

section Splitting

variable {α β κ ι : Type} [DecidableEq κ] [DecidableEq ι] {isRead : Declared α → Declared β → Prop}
  {rename : ι → κ}

theorem get?_map_key (distinct : Function.Injective rename) (name : ι)
    (entries : Entries ι String) :
    Entries.get? (rename name) (entries.map fun entry => (rename entry.1, entry.2)) =
      Entries.get? name entries := by
  induction entries with
  | nil => rfl
  | cons entry entries ih =>
      simp only [List.map_cons, Entries.get?, distinct.eq_iff, ih]

/-- Declarations that are read one by one, with their keys renamed, have their first
ones read one by one. -/
theorem forall₂_firsts (distinct : Function.Injective rename) (key : α → κ) (readKey : β → ι)
    (sameKey : ∀ {entry read}, isRead entry read → read.source = entry.source ∧
      key entry.value = rename (readKey read.value))
    {entries : List (Declared α)} {reads : List (Declared β)}
    (areRead : List.Forall₂ isRead entries reads) (seen : Entries ι String) :
    List.Forall₂ isRead
      (firsts (splitRepeats key (seen.map fun entry => (rename entry.1, entry.2)) entries))
      (firsts (splitRepeats readKey seen reads)) := by
  induction areRead generalizing seen with
  | nil => exact .nil
  | @cons entry read entries reads first _ ih =>
      obtain ⟨sameSource, same⟩ := sameKey first
      rw [splitRepeats, splitRepeats, same, get?_map_key distinct]
      split
      next => exact ih seen
      next =>
        refine .cons first ?_
        have rest := ih (seen ++ [(readKey read.value, read.source)])
        rw [sameSource, List.map_append] at rest
        rw [sameSource]
        exact rest

end Splitting

/-- Checking endpoints tells of the choices in the first ones. -/
theorem ofChoices_checkEndpoints
    (split : List (Declared (Nat × Endpoint) ⊕ (Declared (Nat × Endpoint) × String))) :
    ofChoices (checkEndpoints known split) = ofChoices ((firsts split).flatMap fun declared =>
      checkEndpoint known declared.source
        (endpointLocation declared.value.1 declared.value.2) declared.value.2) := by
  induction split with
  | nil => rfl
  | cons head split ih =>
      cases head with
      | inl declared =>
          have isFirst : firsts (.inl declared :: split) = declared :: firsts split := rfl
          rw [checkEndpoints, isFirst, List.flatMap_cons, ofChoices_append, ofChoices_append, ih]
      | inr repeated => exact ih

/-- The checks of structure tell of the selections that are looked at. -/
theorem ofChoices_checkStructure {documents : List (String × Table)}
    {definitions : List Definition}
    (areRead : List.Forall₂ (fun document read => ReadsDefinition document.1 document.2 read)
      documents definitions) :
    ofChoices (checkStructure definitions) = told (inspected documents) := by
  have noName : ofChoices (checkSchemaNames definitions) = [] :=
    ofChoices_eq_nil (List.forall_mem_map.mpr fun _ _ => rfl)
  have schemas := forall₂_firsts Function.injective_id Prod.fst Prod.fst
    (fun isRead => ⟨isRead.1, isRead.2.1.symm⟩) (forall₂_schemaTables areRead) []
  have endpoints := forall₂_firsts (fun _ _ => Option.some.inj) (fun entry => operation? entry.2)
    (fun entry : Nat × Endpoint => (entry.2.method, entry.2.path))
    (fun ⟨sameSource, _, _, isEndpoint⟩ => ⟨sameSource, operation?_of_readsEndpoint isEndpoint⟩)
    (forall₂_endpointTables areRead) []
  rw [checkStructure, ofChoices_append, ofChoices_append, noName, List.nil_append, inspected,
    told_append, ofChoices_checkEndpoints, splitEndpoints]
  congr 1
  · refine ofChoices_flatMap_eq_told schemas fun entry read isRead => ?_
    obtain ⟨source, name, schema⟩ := read
    obtain ⟨rfl, -, path, isSchema⟩ := isRead
    exact ofChoices_checkSchema isSchema
  · refine ofChoices_flatMap_eq_told endpoints fun entry read isRead => ?_
    obtain ⟨sameSource, sameIndex, path, isEndpoint⟩ := isRead
    rw [sameSource, sameIndex]
    exact ofChoices_checkEndpoint isEndpoint entry.value.1

end Check

end ApiWorkshop
