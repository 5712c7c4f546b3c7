import ApiWorkshop.Proofs.Api.Places

/-!
# No misspelled key is passed over

Every table that can be written in a definition allows a fixed set of keys.  A key beyond
these, put into any of the tables of a document that is accepted, is the fault that the
document is refused for, with the key and the place of its table.
-/

namespace ApiWorkshop

/-- Runs of a reader of which the second one ends in a fault if the first one goes well. -/
def Propagation.failing (found : Misplaced) : Propagation where
  Rel run other := ∀ read, run = .ok read → other = .error found
  fault _ _ isOk := by contradiction
  first related _ isOk := by
    obtain ⟨read, isRead, -⟩ := bind_eq_ok_iff.mp isOk
    rw [related read isRead]
    rfl
  next related answer isOk := by
    obtain ⟨read, isRead, isAnswer⟩ := bind_eq_ok_iff.mp isOk
    rw [isRead]
    exact related read answer isAnswer

/-- The fault of a key that is not allowed in the table at a place. -/
def unknownKeyAt (place : KeyPath) (key : String) : Misplaced where
  fault := .unknownKey key (if place.text.isEmpty then "top level" else place.text)
  path := place.child key

namespace Extract

open Entry (Table)

/-- The second document is the first one with a key more in the table at a place, where the
key is none of those that a table of its kind allows: the top of the document, an endpoint,
a request body, a parameter, a field at any depth, or the translations of a field. -/
inductive Misspelled (key : String) (value : Value) : KeyPath → Table → Table → Prop
  | top {document changed : Table} (unknown : key ∉ topKeys)
      (inserted : Entries.Inserted (key, value) document changed) :
      Misspelled key value [] document changed
  | endpoint {entries others document changed : Table} {place : KeyPath}
      (unknown : key ∉ endpointKeys) (inserted : Entries.Inserted (key, value) entries others)
      (inPlace : EndpointAt entries others place document changed) :
      Misspelled key value place document changed
  | body {entries others document changed : Table} {place : KeyPath}
      (unknown : key ∉ bodyKeys) (inserted : Entries.Inserted (key, value) entries others)
      (inPlace : BodyAt (.table entries) (.table others) place document changed) :
      Misspelled key value place document changed
  | parameter {entries others document changed : Table} {place : KeyPath}
      (unknown : key ∉ parameterKeys) (inserted : Entries.Inserted (key, value) entries others)
      (inPlace : ParameterAt (.table entries) (.table others) place document changed) :
      Misspelled key value place document changed
  | field {entries others document changed : Table} {place : KeyPath}
      (unknown : key ∉ fieldKeys) (inserted : Entries.Inserted (key, value) entries others)
      (inPlace : FieldAt (.table entries) (.table others) place document changed) :
      Misspelled key value place document changed
  | translation {entries others document changed : Table} {place : KeyPath}
      (unknown : key ≠ "translations") (inserted : Entries.Inserted (key, value) entries others)
      (inPlace : TranslationAt entries others place document changed) :
      Misspelled key value place document changed

/-! ## Tables with a key more -/

section Tables

variable {key : String} {value : Value} {entries others : Table} {path : KeyPath}

/-- A key more that is not allowed is the first one at fault. -/
theorem checkKeys_of_inserted {allowed : List String} (unknown : key ∉ allowed)
    (inserted : Entries.Inserted (key, value) entries others)
    (known : Entry.checkKeys allowed path entries = .ok ()) :
    Entry.checkKeys allowed path others = .error (unknownKeyAt path key) := by
  obtain ⟨front, back, rfl, rfl⟩ := inserted
  induction front with
  | nil =>
      rw [List.nil_append, Entry.checkKeys, if_neg unknown]
      rfl
  | cons entry front ih =>
      rw [List.cons_append, Entry.checkKeys] at known ⊢
      split at known
      next isAllowed =>
        rw [if_pos isAllowed]
        exact ih known
      next => contradiction

/-- A reader that begins with the keys of its table fails on a key more. -/
theorem failing_of_checkKeys {α : Type} {allowed : List String} (unknown : key ∉ allowed)
    (inserted : Entries.Inserted (key, value) entries others)
    {next others' : Unit → Except Misplaced α} :
    (Propagation.failing (unknownKeyAt path key)).Rel
      (Entry.checkKeys allowed path entries >>= next)
      (Entry.checkKeys allowed path others >>= others') := by
  intro read isRead
  obtain ⟨⟨⟩, known, -⟩ := bind_eq_ok_iff.mp isRead
  rw [checkKeys_of_inserted unknown inserted known]
  rfl

theorem failing_body (unknown : key ∉ bodyKeys)
    (inserted : Entries.Inserted (key, value) entries others) :
    (Propagation.failing (unknownKeyAt path key)).Rel (body path (.table entries))
      (body path (.table others)) :=
  failing_of_checkKeys unknown inserted

theorem failing_parameter (unknown : key ∉ parameterKeys)
    (inserted : Entries.Inserted (key, value) entries others) :
    (Propagation.failing (unknownKeyAt path key)).Rel (parameter path (.table entries))
      (parameter path (.table others)) :=
  failing_of_checkKeys unknown inserted

theorem failing_field (unknown : key ∉ fieldKeys)
    (inserted : Entries.Inserted (key, value) entries others) :
    (Propagation.failing (unknownKeyAt path key)).Rel (field path (.table entries))
      (field path (.table others)) := by
  rw [field_table, field_table]
  exact failing_of_checkKeys unknown inserted

/-- A table with a key more declares what it declared. -/
theorem declares_of_inserted {name : String}
    (inserted : Entries.Inserted (key, value) entries others)
    (declares : Declares name (.table entries)) : Declares name (.table others) := by
  rw [declares_table_iff] at declares ⊢
  exact fun isExample => (declares isExample).imp inserted.hasKey_of_hasKey
    inserted.hasKey_of_hasKey

end Tables

/-! ## Documents -/

/-- A document that is accepted is refused when a key that is not allowed is put into one of
its tables, and the fault tells the key and the table. -/
theorem definition_eq_error_of_misspelled {source key : String} {value : Value} {place : KeyPath}
    {document changed : Table} {read : Definition}
    (accepted : definition source document = .ok read)
    (misspelled : Misspelled key value place document changed) :
    definition source changed = .error (unknownKeyAt place key) := by
  suffices related : (Propagation.failing (unknownKeyAt place key)).Rel
      (definition source document) (definition source changed) from related read accepted
  cases misspelled with
  | top unknown inserted => exact failing_of_checkKeys unknown inserted
  | endpoint unknown inserted inPlace =>
      apply rel_definition_of_endpointAt _ source inPlace
      intro fileName
      exact failing_of_checkKeys unknown inserted
  | body unknown inserted inPlace =>
      exact rel_definition_of_bodyAt _ source inPlace (failing_body unknown inserted)
  | parameter unknown inserted inPlace =>
      exact rel_definition_of_parameterAt _ source inPlace (failing_parameter unknown inserted)
  | field unknown inserted inPlace =>
      apply rel_definition_of_fieldAt _ source inPlace
      · exact fun name => declares_of_inserted inserted
      · exact failing_field unknown inserted
  | translation unknown inserted inPlace =>
      apply rel_definition_of_translationAt _ source inPlace
      exact failing_of_checkKeys (by simpa using unknown) inserted

/-- A document with a table of a property inside the items of a field. -/
def shopDocument (note : Table) : Table :=
  [("name", .string "shop"), ("schemas", .table [("shop", .table
    [("title", .string "Shop"), ("shelves", .table [("type", .string "array"), ("items", .table
      [("type", .string "object"), ("properties", .table [("note", .table note)])])])])])]

/-- A misspelled description of the property is told with its place. -/
theorem definition_eq_error_of_misspelled_note :
    ∃ place read,
      definition "shop.toml" (shopDocument [("type", .string "string")]) = .ok read ∧
      Misspelled "descripton" (.string "to read") place
        (shopDocument [("type", .string "string")])
        (shopDocument [("descripton", .string "to read"), ("type", .string "string")]) ∧
      definition "shop.toml"
        (shopDocument [("descripton", .string "to read"), ("type", .string "string")]) =
          .error (unknownKeyAt place "descripton") ∧
      (unknownKeyAt place "descripton").cause =
        "unknown key 'descripton' in schemas.shop.shelves.items.properties.note " ++
          "(at schemas.shop.shelves.items.properties.note.descripton)" := by
  have accepted : ∃ read,
      definition "shop.toml" (shopDocument [("type", .string "string")]) = .ok read := ⟨_, rfl⟩
  have misspelled : Misspelled "descripton" (.string "to read")
      [.name "schemas", .name "shop", .name "shelves", .name "items", .name "properties",
        .name "note"]
      (shopDocument [("type", .string "string")])
      (shopDocument [("descripton", .string "to read"), ("type", .string "string")]) :=
    .field (by decide) ⟨[], _, rfl, rfl⟩
      (.intro (.inr fun _ => rfl) (.there (by decide) _ (.here _)) (.here _)
        (.there (by decide) _ (.here _))
        (.items (.there (by decide) _ (.here _))
          (.property (.there (by decide) _ (.here _)) (.here _) .here)))
  obtain ⟨read, accepted⟩ := accepted
  exact ⟨_, read, accepted, misspelled, definition_eq_error_of_misspelled accepted misspelled,
    by decide⟩

end Extract

end ApiWorkshop
