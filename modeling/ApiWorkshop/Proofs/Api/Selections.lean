import ApiWorkshop.Proofs.Api.Accepted
import ApiWorkshop.Proofs.Api.Shapes

/-!
# Values beside choices

A field, a parameter or a schema may list choices and give a default or an example
beside them.  These values are selections.  They are found here in the documents as
they were written, before anything is read from them, at every depth of a field.
Checking what was read tells of the selections that are not among their choices,
and of no other value.
-/

namespace ApiWorkshop

/-- Whether a problem is that a value is not among the choices. -/
def ProblemKind.isChoice : ProblemKind → Bool
  | fallbackNotChoice _ => true
  | sampleNotChoice _ => true
  | _ => false

/-- A value that was written beside choices, with the problem that is told when it is
not one of them. -/
structure Selection where
  members : List Value
  value : Value
  problem : Problem

namespace Selection

open Check Extract
open Entry (Table)

/-- Whether the value, with its dates as text, is found among the choices. -/
def isHeld (selection : Selection) : Bool :=
  selection.value.plain.isMember selection.members

/-- The problems of the selections that are not held. -/
def told (selections : List Selection) : List Problem :=
  (selections.filter (!·.isHeld)).map Selection.problem

/-! ## What is written -/

/-- The selections of a table itself: its default, and its example unless that is an
array, if there are choices. -/
def ofTable (source location : String) (entries : Table) : List Selection :=
  match Entries.get? "enum" entries with
  | some (.array (member :: members)) =>
      ((Entries.get? "default" entries).toList.map fun value =>
        ⟨member :: members, value,
          Check.problem (.fallbackNotChoice value.plain) source s!"{location}.default"⟩) ++
      (((Entries.get? "example" entries).filter (!isArray ·)).toList.map fun value =>
        ⟨member :: members, value,
          Check.problem (.sampleNotChoice value.plain) source s!"{location}.example"⟩)
  | _ => []

mutual

/-- The selections of a field and of everything inside it. -/
def inField (source location : String) : Value → List Selection
  | .table entries =>
      ofTable source location entries ++
        (inItems source location entries ++ inProperties source location entries)
  | _ => []

/-- The selections of the field under `items`. -/
def inItems (source location : String) : List (String × Value) → List Selection
  | [] => []
  | (key, value) :: entries =>
      if key = "items" then
        inField source s!"{location}.items" value
      else
        inItems source location entries

/-- The selections of the fields under `properties`. -/
def inProperties (source location : String) : List (String × Value) → List Selection
  | [] => []
  | (key, value) :: entries =>
      if key = "properties" then
        match value with
        | .table properties => inFields source location properties
        | _ => []
      else
        inProperties source location entries

def inFields (source location : String) : List (String × Value) → List Selection
  | [] => []
  | (name, value) :: entries =>
      inField source s!"{location}.{name}" value ++ inFields source location entries

end

@[simp]
theorem told_nil : told [] = [] :=
  rfl

@[simp]
theorem told_append (first second : List Selection) :
    told (first ++ second) = told first ++ told second := by
  simp [told]

theorem inItems_eq (source location : String) (entries : Table) :
    inItems source location entries =
      match Entries.get? "items" entries with
      | some value => inField source s!"{location}.items" value
      | none => [] := by
  induction entries with
  | nil => rfl
  | cons entry entries ih =>
      obtain ⟨key, value⟩ := entry
      rw [inItems, Entries.get?]
      by_cases isItems : key = "items"
      · rw [if_pos isItems, if_pos isItems]
      · rw [if_neg isItems, if_neg isItems, ih]

theorem inItems_eq_nil {source location : String} {entries : Table}
    (noItems : Entries.hasKey "items" entries = false) : inItems source location entries = [] := by
  have noValue : Entries.get? "items" entries = none :=
    Option.isSome_eq_false_iff.trans Option.isNone_iff_eq_none |>.mp noItems
  rw [inItems_eq, noValue]

theorem inProperties_eq_nil {source location : String} {entries : Table}
    (noProperties : Entries.hasKey "properties" entries = false) :
    inProperties source location entries = [] := by
  induction entries with
  | nil => rfl
  | cons entry entries ih =>
      obtain ⟨key, value⟩ := entry
      rw [Entries.hasKey, Entries.get?] at noProperties
      split at noProperties
      · contradiction
      next other => rw [inProperties.eq_def]; simp only [if_neg other]; exact ih noProperties

end Selection

namespace Check

open Extract Selection
open Entry (Table)

/-- The problems that are about choices. -/
def ofChoices (found : List Problem) : List Problem :=
  found.filter fun problem => problem.kind.isChoice

@[simp]
theorem ofChoices_nil : ofChoices [] = [] :=
  rfl

@[simp]
theorem ofChoices_append (first second : List Problem) :
    ofChoices (first ++ second) = ofChoices first ++ ofChoices second :=
  List.filter_append ..

@[simp]
theorem ofChoices_cons (kind : ProblemKind) (source location : String) (found : List Problem) :
    ofChoices (problem kind source location :: found) =
      if kind.isChoice then
        problem kind source location :: ofChoices found
      else
        ofChoices found :=
  List.filter_cons

theorem ofChoices_eq_nil {found : List Problem}
    (areOthers : ∀ problem ∈ found, problem.kind.isChoice = false) : ofChoices found = [] :=
  List.filter_eq_nil_iff.mpr fun problem member => by simp [areOthers problem member]

variable {known : List String} {owner source : String}

@[simp]
theorem ofChoices_checkRequired (required fields : List String) (location : String) :
    ofChoices (checkRequired required fields source location) = [] :=
  ofChoices_eq_nil (List.forall_mem_map.mpr fun _ _ => rfl)

/-! ## Choices -/

theorem isArray_plain (value : Value) : isArray value.plain = isArray value := by
  cases value with
  | scalar part => cases part <;> rfl
  | array _ | table _ => rfl

theorem ofChoices_checkChoice (members : List Value) {kind : Value → ProblemKind}
    (areChoices : ∀ value, (kind value).isChoice = true) (location : String)
    (value : Option Value) :
    ofChoices (checkChoice members kind source location (value.map Value.plain)) =
      told (value.toList.map fun value =>
        ⟨members, value, problem (kind value.plain) source location⟩) := by
  cases value with
  | none => rfl
  | some value =>
      by_cases isHeld : value.plain.isMember members = true <;>
        simp [checkChoice, told, Selection.isHeld, isHeld, ofChoices, problem, areChoices]

/-- What was read from a table tells of the selections of the table. -/
theorem ofChoices_checkChoices (location : String) (entries : Table)
    {choices : Option (List Value)}
    (areChoices : choices = match Entries.get? "enum" entries with
      | some (.array choices) => some choices
      | _ => none) :
    ofChoices (checkChoices choices (Entry.plain? entries "default")
        (Entry.plain? entries "example") source location) =
      told (ofTable source location entries) := by
  subst areChoices
  cases isFound : Entries.get? "enum" entries with
  | none => simp [checkChoices, ofTable, isFound]
  | some found =>
      cases found with
      | scalar _ | table _ => simp [checkChoices, ofTable, isFound]
      | array members =>
          cases members with
          | nil => simp [checkChoices, ofTable, isFound, ofChoices, problem, ProblemKind.isChoice]
          | cons member members =>
              have sample : (Entry.plain? entries "example").filter (!isArray ·) =
                  ((Entries.get? "example" entries).filter (!isArray ·)).map Value.plain := by
                rw [Entry.plain?, Option.filter_map]
                simp [Function.comp_def, isArray_plain]
              simp only [checkChoices, ofTable, isFound]
              rw [sample, Entry.plain?, ofChoices_append, told_append,
                ofChoices_checkChoice _ fun _ => rfl, ofChoices_checkChoice _ fun _ => rfl]

/-! ## Fields -/

/-- Whether a schema is known has nothing to do with choices. -/
theorem ofChoices_checkField_reference (location schema : String) (notes : Notes) :
    ofChoices (checkField known owner source location (.reference schema notes)) =
      ofChoices (checkChoices notes.choices notes.fallback notes.sample source location) := by
  rw [checkField, ofChoices_append]
  split
  · exact List.append_nil _
  · split <;> exact List.append_nil _

/-- A bare type name has no choices. -/
theorem ofChoices_checkField_shorthand (name location : String) :
    ofChoices (checkField known owner source location (shorthand name {})) = [] := by
  rw [shorthand]
  split
  · rfl
  · rfl
  · rfl
  · rw [ofChoices_checkField_reference]
    rfl

theorem ofChoices_notes {entries : Table} {path : KeyPath} {notes : Notes}
    (areRead : fieldNotes entries path = .ok notes) (location : String) :
    ofChoices (checkChoices notes.choices notes.fallback notes.sample source location) =
      told (ofTable source location entries) := by
  obtain ⟨format, -, areRead⟩ := bind_eq_ok_iff.mp areRead
  obtain ⟨description, -, areRead⟩ := bind_eq_ok_iff.mp areRead
  obtain ⟨choices, areChoices, areRead⟩ := bind_eq_ok_iff.mp areRead
  obtain rfl := Except.ok.inj areRead
  exact ofChoices_checkChoices location entries (Entry.choices_of_array? areChoices)

mutual

/-- Checking a field tells of the selections that were written in it, at every depth. -/
theorem ofChoices_checkField :
    ∀ {path : KeyPath} {location : String} {value : Value} {read : Field},
      field path value = .ok read →
        ofChoices (checkField known owner source location read) =
          told (inField source location value)
  | path, location, .table entries, read, isRead => by
      obtain ⟨shape, notes, isShape, fits, areNotes, rfl⟩ := exists_shape isRead
      have ofNotes : ofChoices (checkChoices notes.choices notes.fallback notes.sample source
          location) = told (ofTable source location entries) := ofChoices_notes areNotes location
      have noItems := (hasKey_of_checkFieldShape fits).1
      have noProperties := (hasKey_of_checkFieldShape fits).2
      rw [inField, told_append, ← ofNotes, told_append]
      cases isShape with
      | schema name _ | reference isType _ =>
          rw [inItems_eq_nil (noItems (by simp [Field.typeName])),
            inProperties_eq_nil (noProperties (by simp [Field.typeName])), withNotes,
            ofChoices_checkField_reference]
          exact (List.append_nil _).symm
      | @primitive type isType =>
          rw [inItems_eq_nil (noItems (by cases type <;> decide)),
            inProperties_eq_nil (noProperties (by cases type <;> decide))]
          exact (List.append_nil _).symm
      | anyArray _ noItem =>
          rw [← ofChoices_checkField_itemIn noItem,
            inProperties_eq_nil (noProperties (by simp [Field.typeName]))]
          exact (List.append_nil _).symm
      | array _ isItem =>
          rw [← ofChoices_checkField_itemIn isItem,
            inProperties_eq_nil (noProperties (by simp [Field.typeName])), withNotes, checkField]
          simp
      | object _ required areProperties =>
          rw [inItems_eq_nil (noItems (by simp [Field.typeName])),
            ← ofChoices_checkFields_propertiesIn areProperties, withNotes, checkField]
          simp
  | _, _, .array _, _, isRead => by simp [field, misplaced] at isRead
  | _, location, .scalar part, _, isRead => by
      cases part with
      | string name =>
          rw [field] at isRead
          exact Except.ok.inj isRead ▸ ofChoices_checkField_shorthand name location
      | null | bool _ | int _ | float _ | dateTime _ | date _ | time _ =>
          simp [field, misplaced] at isRead

/-- What was read from the declaration under `items` tells of the selections in it, and
if there is none there are no selections. -/
theorem ofChoices_checkField_itemIn :
    ∀ {path : KeyPath} {location : String} {entries : List (String × Value)}
      {read : Option Field}, itemIn path entries = .ok read →
        (read.toList.flatMap fun item =>
          ofChoices (checkField known owner source s!"{location}.items" item)) =
            told (inItems source location entries)
  | _, _, [], _, isRead => by
      cases isRead
      rfl
  | path, location, (key, value) :: entries, read, isRead => by
      rw [itemIn] at isRead
      rw [inItems]
      split at isRead
      next isItems =>
        obtain ⟨item, isItem, same⟩ := bind_eq_ok_iff.mp isRead
        obtain rfl := Except.ok.inj same
        rw [if_pos isItems]
        exact (List.append_nil _).trans (ofChoices_checkField isItem)
      next other =>
        rw [if_neg other]
        exact ofChoices_checkField_itemIn isRead

theorem ofChoices_checkFields_propertiesIn :
    ∀ {path : KeyPath} {location : String} {entries : List (String × Value)}
      {read : List (String × Field)}, propertiesIn path entries = .ok read →
        ofChoices (checkFields known owner source location read) =
          told (inProperties source location entries)
  | _, _, [], _, isRead => by
      cases isRead
      rfl
  | path, location, (key, value) :: entries, read, isRead => by
      rw [propertiesIn.eq_def] at isRead
      rw [inProperties.eq_def]
      dsimp only at isRead ⊢
      split at isRead
      next isProperties =>
        rw [if_pos isProperties]
        cases value with
        | table properties => exact ofChoices_checkFields isRead
        | array _ | scalar _ => contradiction
      next other =>
        rw [if_neg other]
        exact ofChoices_checkFields_propertiesIn isRead

theorem ofChoices_checkFields :
    ∀ {path : KeyPath} {location : String} {entries : List (String × Value)}
      {read : List (String × Field)}, fields path entries = .ok read →
        ofChoices (checkFields known owner source location read) =
          told (inFields source location entries)
  | _, _, [], _, areRead => by
      cases areRead
      rfl
  | path, location, (name, value) :: entries, read, areRead => by
      rw [fields] at areRead
      obtain ⟨first, isFirst, areRead⟩ := bind_eq_ok_iff.mp areRead
      obtain ⟨rest, areRest, same⟩ := bind_eq_ok_iff.mp areRead
      obtain rfl := Except.ok.inj same
      rw [checkFields, inFields, ofChoices_append, told_append, ofChoices_checkField isFirst,
        ofChoices_checkFields areRest]

end

end Check

end ApiWorkshop
