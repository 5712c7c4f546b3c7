import ApiWorkshop.Proofs.Api.Shapes
import ApiWorkshop.Proofs.Toml.Regular

/-!
# Definitions are regular

The fields, properties and parameters of a definition that was read have
distinct names, and the values in it have distinct keys.  Samples and fallbacks
have no dates; choices may have some.
-/

namespace ApiWorkshop

/-- A scalar of a value whose dates were made texts. -/
def Scalar.IsPlain (part : Scalar) : Prop :=
  part.IsRead ∧ part.isDated = false

/-- Notes whose values are regular, without dates in the sample and the fallback. -/
structure Notes.Regular (notes : Notes) : Prop where
  choices : ∀ choices ∈ notes.choices, (Value.array choices).Regular Scalar.IsRead
  fallback : ∀ value ∈ notes.fallback, value.Regular Scalar.IsPlain
  sample : ∀ value ∈ notes.sample, value.Regular Scalar.IsPlain

/-- A field whose properties have distinct names and whose notes are regular, at
any depth. -/
inductive Field.Regular : Field → Prop
  | primitive (type : Primitive) {notes : Notes} (areNotes : notes.Regular) :
      Regular (.primitive type notes)
  | anyArray {notes : Notes} (areNotes : notes.Regular) : Regular (.anyArray notes)
  | array {item : Field} {notes : Notes} (isItem : Regular item) (areNotes : notes.Regular) :
      Regular (.array item notes)
  | object {properties : List (String × Field)} {notes : Notes} (required : List String)
      (distinct : (properties.map Prod.fst).Nodup)
      (areProperties : ∀ property ∈ properties, Regular property.2) (areNotes : notes.Regular) :
      Regular (.object properties required notes)
  | reference (schema : String) {notes : Notes} (areNotes : notes.Regular) :
      Regular (.reference schema notes)

/-- A schema with regular fields of distinct names, regular values, and items only
if it is an array. -/
structure Schema.Regular (schema : Schema) : Prop where
  distinct : (Entries.keys schema.fields).Nodup
  fields : ∀ entry ∈ schema.fields, entry.2.Regular
  items : ∀ item ∈ schema.items, item.Regular
  isArray : schema.items ≠ none → schema.type = .array
  choices : ∀ choices ∈ schema.choices, (Value.array choices).Regular Scalar.IsRead
  sample : ∀ value ∈ schema.sample, value.Regular Scalar.IsPlain

/-- An endpoint with regular parameters, those for the path of distinct names. -/
structure Endpoint.Regular (endpoint : Endpoint) : Prop where
  query : ∀ entry ∈ endpoint.query, entry.2.notes.Regular
  pathParameters : ∀ entry ∈ endpoint.pathParameters, entry.2.notes.Regular
  distinct : (Entries.keys endpoint.pathParameters).Nodup

structure Definition.Regular (definition : Definition) : Prop where
  schemas : ∀ entry ∈ definition.schemas, entry.2.Regular
  endpoints : ∀ endpoint ∈ definition.endpoints, endpoint.Regular

theorem Notes.regular_empty : Notes.Regular {} :=
  ⟨nofun, nofun, nofun⟩

namespace Extract

open Entry (Table)

/-! ## Parts of tables -/

theorem regular_entriesOf {value : Value} (regular : value.Regular Scalar.IsRead) :
    (Value.table (Entry.entriesOf value)).Regular Scalar.IsRead := by
  cases value with
  | table entries => exact regular
  | array _ | scalar _ => exact Toml.isReadValue_empty

theorem regular_tableUnder {entries : Table}
    (regular : (Value.table entries).Regular Scalar.IsRead) (key : String) :
    (Value.table (Entry.tableUnder key entries)).Regular Scalar.IsRead := by
  rw [Entry.tableUnder]
  cases isValue : Entries.get? key entries with
  | none => exact Toml.isReadValue_empty
  | some value => exact regular_entriesOf (regular.get? isValue)

theorem regular_itemsUnder {entries : Table}
    (regular : (Value.table entries).Regular Scalar.IsRead) (key : String) :
    ∀ item ∈ Entry.itemsUnder key entries, item.Regular Scalar.IsRead := by
  rw [Entry.itemsUnder]
  split
  next items areItems => exact (regular.get? areItems).items
  next => simp

/-! ## Notes -/

theorem regular_of_plain? {entries : Table} (regular : (Value.table entries).Regular Scalar.IsRead)
    {key : String} {value : Value} (isValue : value ∈ Entry.plain? entries key) :
    value.Regular Scalar.IsPlain := by
  obtain ⟨given, isGiven, rfl⟩ := Option.map_eq_some_iff.mp isValue
  exact Value.regular_plain (regular.get? isGiven)

/-- The choices that a table lists are regular. -/
theorem regular_choices {entries : Table} (regular : (Value.table entries).Regular Scalar.IsRead)
    {listed : Option (List Value)}
    (areListed : listed = match Entries.get? "enum" entries with
      | some (.array choices) => some choices
      | _ => none) : ∀ choices ∈ listed, (Value.array choices).Regular Scalar.IsRead := by
  intro choices areChoices
  subst areListed
  split at areChoices
  next found isFound => exact Option.some.inj areChoices ▸ regular.get? isFound
  next => contradiction

theorem regular_fieldNotes {entries : Table} (regular : (Value.table entries).Regular Scalar.IsRead)
    {path : KeyPath} {notes : Notes} (areRead : fieldNotes entries path = .ok notes) :
    notes.Regular := by
  obtain ⟨format, -, areRead⟩ := bind_eq_ok_iff.mp areRead
  obtain ⟨description, -, areRead⟩ := bind_eq_ok_iff.mp areRead
  obtain ⟨choices, areChoices, areRead⟩ := bind_eq_ok_iff.mp areRead
  obtain rfl := Except.ok.inj areRead
  exact ⟨regular_choices regular (Entry.choices_of_array? areChoices),
    fun _ => regular_of_plain? regular, fun _ => regular_of_plain? regular⟩

theorem regular_shorthand (name : String) {notes : Notes} (areNotes : notes.Regular) :
    (shorthand name notes).Regular := by
  rw [shorthand]
  split
  · exact .anyArray areNotes
  · exact .object [] List.nodup_nil (by simp) areNotes
  · exact .primitive _ areNotes
  · exact .reference name areNotes

theorem regular_withNotes {shape : Field} (regular : shape.Regular) {notes : Notes}
    (areNotes : notes.Regular) : (withNotes notes shape).Regular := by
  cases regular with
  | primitive type _ => exact .primitive type areNotes
  | anyArray _ => exact .anyArray areNotes
  | array isItem _ => exact .array isItem areNotes
  | object required distinct areProperties _ => exact .object required distinct areProperties areNotes
  | reference schema _ => exact .reference schema areNotes

/-! ## Fields -/

theorem keys_fields {path : KeyPath} {entries : List (String × Value)}
    {read : List (String × Field)} (areRead : fields path entries = .ok read) :
    read.map Prod.fst = entries.map Prod.fst := by
  induction entries generalizing read with
  | nil => cases areRead; rfl
  | cons entry entries ih =>
      rw [fields] at areRead
      obtain ⟨first, -, areRead⟩ := bind_eq_ok_iff.mp areRead
      obtain ⟨rest, areRest, same⟩ := bind_eq_ok_iff.mp areRead
      obtain rfl := Except.ok.inj same
      rw [List.map_cons, List.map_cons, ih areRest]

mutual

theorem regular_field :
    ∀ {path : KeyPath} {value : Value} {read : Field}, value.Regular Scalar.IsRead →
      field path value = .ok read → read.Regular
  | path, .table entries, read, regular, isRead => by
      obtain ⟨shape, notes, isShape, -, areNotes, rfl⟩ := exists_shape isRead
      refine regular_withNotes ?_ (regular_fieldNotes regular areNotes)
      cases isShape with
      | schema name _ => exact .reference name Notes.regular_empty
      | reference _ _ => exact .reference _ Notes.regular_empty
      | primitive _ => exact .primitive _ Notes.regular_empty
      | anyArray _ _ => exact .anyArray Notes.regular_empty
      | array _ isItem => exact .array (regular_itemIn regular.entries isItem) Notes.regular_empty
      | object _ required areProperties =>
          obtain ⟨distinct, areRegular⟩ := regular_propertiesIn regular.entries areProperties
          exact .object required distinct areRegular Notes.regular_empty
  | _, .array _, _, _, isRead => by simp [field, misplaced] at isRead
  | _, .scalar part, _, _, isRead => by
      cases part with
      | string name =>
          rw [field] at isRead
          exact Except.ok.inj isRead ▸ regular_shorthand name Notes.regular_empty
      | null | bool _ | int _ | float _ | dateTime _ | date _ | time _ =>
          simp [field, misplaced] at isRead

theorem regular_itemIn :
    ∀ {path : KeyPath} {entries : List (String × Value)} {read : Field},
      (∀ entry ∈ entries, entry.2.Regular Scalar.IsRead) →
        itemIn path entries = .ok (some read) → read.Regular
  | _, [], _, _, isRead => by simp [itemIn] at isRead
  | path, (key, value) :: entries, read, regular, isRead => by
      obtain ⟨valueRegular, restRegular⟩ := List.forall_mem_cons.mp regular
      rw [itemIn] at isRead
      split at isRead
      · obtain ⟨item, isItem, same⟩ := bind_eq_ok_iff.mp isRead
        obtain rfl := Option.some.inj (Except.ok.inj same)
        exact regular_field valueRegular isItem
      · exact regular_itemIn restRegular isRead

theorem regular_propertiesIn :
    ∀ {path : KeyPath} {entries : List (String × Value)} {read : List (String × Field)},
      (∀ entry ∈ entries, entry.2.Regular Scalar.IsRead) →
        propertiesIn path entries = .ok read →
          (read.map Prod.fst).Nodup ∧ ∀ property ∈ read, property.2.Regular
  | _, [], _, _, isRead => by
      cases isRead
      simp
  | path, (key, value) :: entries, read, regular, isRead => by
      obtain ⟨valueRegular, restRegular⟩ := List.forall_mem_cons.mp regular
      rw [propertiesIn.eq_def] at isRead
      dsimp only at isRead
      split at isRead
      · cases value with
        | table properties =>
            rw [keys_fields isRead]
            exact ⟨valueRegular.distinct, regular_fields valueRegular.entries isRead⟩
        | array _ | scalar _ => contradiction
      · exact regular_propertiesIn restRegular isRead

theorem regular_fields :
    ∀ {path : KeyPath} {entries : List (String × Value)} {read : List (String × Field)},
      (∀ entry ∈ entries, entry.2.Regular Scalar.IsRead) →
        fields path entries = .ok read → ∀ property ∈ read, property.2.Regular
  | _, [], _, _, areRead => by
      cases areRead
      simp
  | path, (name, value) :: entries, read, regular, areRead => by
      obtain ⟨valueRegular, restRegular⟩ := List.forall_mem_cons.mp regular
      rw [fields] at areRead
      obtain ⟨first, isFirst, areRead⟩ := bind_eq_ok_iff.mp areRead
      obtain ⟨rest, areRest, same⟩ := bind_eq_ok_iff.mp areRead
      obtain rfl := Except.ok.inj same
      exact List.forall_mem_cons.mpr
        ⟨regular_field valueRegular isFirst, regular_fields restRegular areRest⟩

end

/-! ## Schemas -/

/-- Only an array schema has an attribute for its items. -/
theorem get?_items_attributes {type : JsonType} (notArray : type ≠ .array) (entries : Table) :
    Entries.get? "items" (entries.filter (isAttribute type)) = none := by
  refine Entries.get?_of_not_mem fun member => ?_
  obtain ⟨⟨key, value⟩, inFilter, rfl⟩ := List.mem_map.mp member
  have isItems := (List.mem_filter.mp inFilter).2
  exact notArray (of_decide_eq_true isItems)

theorem regular_schema {name : String} {entries : Table} {path : KeyPath} {read : Schema}
    (regular : (Value.table entries).Regular Scalar.IsRead)
    (isRead : schema name entries path = .ok read) : read.Regular := by
  have reads := readsSchema isRead
  have attributes := regular.filter (isAttribute read.type)
  have others := regular.filter (!isAttribute read.type ·)
  have distinct : (Entries.keys read.fields).Nodup := by
    rw [Entries.keys, keys_fields reads.fields]
    exact others.distinct
  have areItems := reads.items
  refine ⟨distinct, regular_fields others.entries reads.fields, fun item isItem => ?_,
    fun hasItems => ?_, ?_, ?_⟩
  · split at areItems
    next => simp [areItems] at isItem
    next value isValue =>
      obtain ⟨found, isFound, same⟩ := areItems
      obtain rfl := Option.some.inj (same.symm.trans isItem)
      exact regular_field (attributes.get? isValue) isFound
  · by_contra notArray
    rw [get?_items_attributes notArray] at areItems
    exact hasItems areItems
  · exact regular_choices attributes reads.choices
  · exact fun _ isSample => regular_of_plain? attributes (reads.sample ▸ isSample)

/-! ## Endpoints -/

theorem regular_parameter {path : KeyPath} {value : Value} {read : Parameter}
    (regular : value.Regular Scalar.IsRead) (isRead : parameter path value = .ok read) :
    read.notes.Regular := by
  rcases notes_of_parameter isRead with
    ⟨name, -, noNotes⟩ | ⟨entries, rfl, areChoices, isFallback, isSample⟩
  · exact noNotes ▸ Notes.regular_empty
  · exact ⟨regular_choices regular (Entry.choices_of_array? areChoices),
      fun _ isValue => regular_of_plain? regular (isFallback ▸ isValue),
      fun _ isValue => regular_of_plain? regular (isSample ▸ isValue)⟩

theorem regular_parametersAt {entries : Table}
    (regular : (Value.table entries).Regular Scalar.IsRead) {key : String} {path : KeyPath}
    {read : Entries String Parameter} (areRead : parametersAt entries key path = .ok read) :
    (Entries.keys read).Nodup ∧ ∀ entry ∈ read, entry.2.notes.Regular := by
  have reads := forall₂_of_parametersAt areRead
  have inner := regular_tableUnder regular key
  have sameKeys : Entries.keys (Entry.tableUnder key entries) = Entries.keys read := by
    rw [Entries.keys, Entries.keys, ← List.forall₂_eq_eq_eq, List.forall₂_map_left_iff,
      List.forall₂_map_right_iff]
    exact reads.imp fun _ _ isRead => isRead.1.symm
  refine ⟨sameKeys ▸ inner.distinct, fun entry member => ?_⟩
  obtain ⟨part, inParts, -, _, isParameter⟩ := exists_mem_of_forall₂ reads entry member
  exact regular_parameter (inner.entries part inParts) isParameter

theorem regular_endpoint {fileName : Option String} {path : KeyPath} {entries : Table}
    {read : Endpoint} (regular : (Value.table entries).Regular Scalar.IsRead)
    (isRead : endpoint fileName path entries = .ok read) : read.Regular := by
  have reads := readsEndpoint isRead
  obtain ⟨distinct, areRegular⟩ := regular_parametersAt regular reads.pathParameters
  exact ⟨(regular_parametersAt regular reads.query).2, areRegular, distinct⟩

/-! ## Documents -/

theorem regular_definition {source : String} {document : Table} {read : Definition}
    (regular : (Value.table document).Regular Scalar.IsRead)
    (isRead : definition source document = .ok read) : read.Regular := by
  have reads := readsDefinition isRead
  constructor
  · intro entry member
    obtain ⟨part, inParts, -, _, isSchema⟩ := exists_mem_of_forall₂ reads.schemas entry member
    have isRegular := (regular_tableUnder regular "schemas").entries part inParts
    exact regular_schema (regular_entriesOf isRegular) isSchema
  · intro endpoint member
    obtain ⟨part, inParts, _, _, isEndpoint⟩ :=
      exists_mem_of_forall₂ reads.endpoints endpoint member
    have isRegular := regular_itemsUnder regular "endpoints" part inParts
    exact regular_endpoint (regular_entriesOf isRegular) isEndpoint

end Extract

namespace Definition

/-- Every definition that was read is regular. -/
theorem regular_of_readAll {files : List SourceText} {definitions : List Definition}
    (areRead : readAll files = .ok definitions) :
    ∀ definition ∈ definitions, definition.Regular := by
  refine forall_mem_of_readAll (fun isRead => ?_) areRead
  obtain ⟨document, isDecoded, isDefinition⟩ := read_eq_ok_iff.mp isRead
  exact Extract.regular_definition (Toml.regular_of_decode isDecoded) isDefinition

end Definition

end ApiWorkshop
