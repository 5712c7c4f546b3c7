import ApiWorkshop.Proofs.Api.Places
import Mathlib.Logic.Relation

/-!
# Two spellings of one declaration

A field, a parameter and a request body can be declared by a bare name or by a table
that says no more than the name.  Whichever way they are written, and however many of
them are written the other way, a document is read as the same definition.
-/

namespace ApiWorkshop

/-- Runs of a reader that end alike. -/
def Propagation.same : Propagation where
  Rel run other := run = other
  fault _ := rfl
  first related := related ▸ rfl
  next related := congrArg _ (funext related)

namespace Extract

open Entry (Table)

/-- A bare name as a table with the name under a key. -/
def spelledOut (key name : String) : Value :=
  .table [(key, .string name)]

/-- The second document is the first one with a bare name at one place spelled out: the
type of a field, of the items of an array, of a property or of a parameter, or the schema
of a request body.  An empty parameter type cannot be spelled out. -/
inductive Respelled : Table → Table → Prop
  | field {name : String} {place : KeyPath} {document changed : Table}
      (inPlace : FieldAt (.string name) (spelledOut "type" name) place document changed) :
      Respelled document changed
  | parameter {name : String} (notEmpty : name ≠ "") {place : KeyPath} {document changed : Table}
      (inPlace : ParameterAt (.string name) (spelledOut "type" name) place document changed) :
      Respelled document changed
  | body {name : String} {place : KeyPath} {document changed : Table}
      (inPlace : BodyAt (.string name) (spelledOut "schema" name) place document changed) :
      Respelled document changed

/-! ## What a bare name is read as -/

/-- A table that gives only a type has the shape that the bare type name has. -/
theorem shapeIn_spelledOut (path : KeyPath) (name : String) :
    shapeIn path [("type", .string name)] = .ok (shorthand name {}) := by
  have noSchema : Entries.get? "schema" [("type", Value.string name)] = none := rfl
  have someType : Entries.get? "type" [("type", Value.string name)] = some (.string name) := rfl
  have isName : Entry.string (path.child "type") (.string name) = .ok name := rfl
  rw [shapeIn, noSchema, someType]
  dsimp only
  rw [isName, ok_bind, shorthand]
  cases JsonType.ofName? name with
  | none => rfl
  | some type => cases type <;> rfl

theorem withNotes_shorthand (name : String) (notes : Notes) :
    withNotes notes (shorthand name {}) = shorthand name notes := by
  rw [shorthand, shorthand]
  cases JsonType.ofName? name with
  | none => rfl
  | some type => cases type <;> rfl

theorem field_string (path : KeyPath) (name : String) :
    field path (.string name) = field path (spelledOut "type" name) := by
  have keys : Entry.checkKeys fieldKeys path [("type", .string name)] = .ok () := rfl
  have notes : fieldNotes [("type", .string name)] path = .ok {} := rfl
  rw [spelledOut, field_table, keys, shapeIn_spelledOut, notes, ok_bind, ok_bind, ok_bind,
    withNotes_shorthand, field]

theorem parameter_string (path : KeyPath) {name : String} (notEmpty : name ≠ "") :
    parameter path (.string name) = parameter path (spelledOut "type" name) := by
  have given : nonempty (some name) = some name := by simp [nonempty, notEmpty]
  have reads : parameter path (spelledOut "type" name) =
      .ok { type := parameterType ((nonempty (some name)).getD "string") } := rfl
  rw [reads, given]
  rfl

theorem body_string (path : KeyPath) (name : String) :
    body path (.string name) = body path (spelledOut "schema" name) :=
  rfl

theorem declares_spelledOut (key name : String) : Declares key (spelledOut "type" name) :=
  declares_table_iff.mpr fun _ => .inl rfl

/-! ## What a respelled document is read as -/

theorem definition_of_respelled {document changed : Table} (source : String)
    (respelled : Respelled document changed) :
    definition source document = definition source changed := by
  cases respelled with
  | field inPlace =>
      exact rel_definition_of_fieldAt .same source inPlace
        (fun key _ => declares_spelledOut key _) (field_string _ _)
  | parameter notEmpty inPlace =>
      exact rel_definition_of_parameterAt .same source inPlace (parameter_string _ notEmpty)
  | body inPlace => exact rel_definition_of_bodyAt .same source inPlace (body_string _ _)

/-- A document with any number of bare names spelled out is accepted exactly if the document
is, and it is read as the same definition; if it is not accepted, it has the same fault. -/
theorem definition_eq_of_respelled {document other : Table} (source : String)
    (respelled : Relation.ReflTransGen Respelled document other) :
    definition source other = definition source document := by
  induction respelled with
  | refl => rfl
  | tail _ last ih => rw [← definition_of_respelled source last, ih]

/-- A document of an order whose declarations are given, so that they can be bare names or
spelled out. -/
def orderDocument (body deep required next items : Value) : Table :=
  [("endpoints", .array [.table
      [("path", .string "/order"), ("method", .string "PUT"), ("body", body),
        ("query", .table [("deep", deep)])]]),
    ("schemas", .table
      [("order", .table
        [("title", .string "Order"), ("required", required),
          ("lines", .table [("type", .string "array"), ("items", .table
            [("type", .string "object"), ("properties", .table [("next", next)])])])]),
        ("line", .table [("type", .string "array"), ("items", items)])])]

/-- An order with bare names. -/
def bareOrder : Table :=
  orderDocument (.string "order") (.string "boolean") (.string "line") (.string "line")
    (.string "integer")

/-- An order with every name spelled out. -/
def spelledOrder : Table :=
  orderDocument (spelledOut "schema" "order") (spelledOut "type" "boolean")
    (spelledOut "type" "line") (spelledOut "type" "line") (spelledOut "type" "integer")

theorem respelled_order : Relation.ReflTransGen Respelled bareOrder spelledOrder := by
  have bodyStep (deep required next items : Value) :
      Respelled (orderDocument (.string "order") deep required next items)
        (orderDocument (spelledOut "schema" "order") deep required next items) :=
    .body (.intro (.there (by decide) _ (.there (by decide) _ (.here _)))
      (.intro [] [] (.here _)))
  have queryStep (body required next items : Value) :
      Respelled (orderDocument body (.string "boolean") required next items)
        (orderDocument body (spelledOut "type" "boolean") required next items) :=
    .parameter (by decide) (.intro (.inl rfl) (.here _)
      (.there (by decide) _ (.there (by decide) _ (.there (by decide) _ (.here _))))
      (.intro [] [] (.here _)))
  have requiredStep (body deep next items : Value) :
      Respelled (orderDocument body deep (.string "line") next items)
        (orderDocument body deep (spelledOut "type" "line") next items) :=
    .field (.intro (.inr fun _ => rfl) (.there (by decide) _ (.here _)) (.here _)
      (.there (by decide) _ (.here _)) .here)
  have nextStep (body deep required items : Value) :
      Respelled (orderDocument body deep required (.string "line") items)
        (orderDocument body deep required (spelledOut "type" "line") items) :=
    .field (.intro (.inr fun _ => rfl)
      (.there (by decide) _ (.there (by decide) _ (.here _))) (.here _)
      (.there (by decide) _ (.here _))
      (.items (.there (by decide) _ (.here _))
        (.property (.there (by decide) _ (.here _)) (.here _) .here)))
  have itemsStep (body deep required next : Value) :
      Respelled (orderDocument body deep required next (.string "integer"))
        (orderDocument body deep required next (spelledOut "type" "integer")) :=
    .field (.intro (.inl rfl) (.there (by decide) _ (.here _)) (.there (by decide) _ (.here _))
      (.there (by decide) _ (.here _)) .here)
  exact .head (bodyStep ..) (.head (queryStep ..) (.head (requiredStep ..)
    (.head (nextStep ..) (.single (itemsStep ..)))))

/-- The order with every name spelled out is accepted, and read as the one with bare names. -/
theorem definition_eq_of_respelled_order :
    (∃ read, definition "order.toml" bareOrder = .ok read) ∧
      Relation.ReflTransGen Respelled bareOrder spelledOrder ∧
      definition "order.toml" spelledOrder = definition "order.toml" bareOrder :=
  ⟨⟨_, rfl⟩, respelled_order, definition_eq_of_respelled "order.toml" respelled_order⟩

end Extract

end ApiWorkshop
