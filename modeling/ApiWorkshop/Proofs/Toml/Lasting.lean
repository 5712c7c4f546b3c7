import ApiWorkshop.Api.KeyPath
import ApiWorkshop.Proofs.Toml.Regular

/-!
# What was read stays

A statement adds to what was read before and takes nothing away: tables get new names and
arrays new items at their ends.  So a scalar that a document has said at some place stands
there in the end, whatever statements follow.
-/

namespace ApiWorkshop

namespace Value

/-- The value that a path leads to. -/
def at? : KeyPath → Value → Option Value
  | [], value => some value
  | .name name :: path, .table entries => (Entries.get? name entries).bind (at? path)
  | .index index :: path, .array items => items[index]?.bind (at? path)
  | _ :: _, _ => none

theorem at?_append (path others : KeyPath) (value : Value) :
    value.at? (path ++ others) = (value.at? path).bind (at? others) := by
  induction path generalizing value with
  | nil => rfl
  | cons step path ih =>
      have goesOn (inner : Option Value) :
          inner.bind (at? (path ++ others)) = (inner.bind (at? path)).bind (at? others) := by
        rw [Option.bind_assoc]
        exact Option.bind_congr fun value _ => ih value
      rw [List.cons_append]
      cases step with
      | name name => cases value with
        | table entries => exact goesOn _
        | array items => rfl
        | scalar scalar => rfl
      | index index => cases value with
        | table entries => rfl
        | array items => exact goesOn _
        | scalar scalar => rfl

/-- Every scalar of a value stands at the same place in another one. -/
def LastsIn (value after : Value) : Prop :=
  ∀ path scalar, value.at? path = some (.scalar scalar) → after.at? path = some (.scalar scalar)

theorem lastsIn_refl (value : Value) : value.LastsIn value :=
  fun _ _ => id

theorem LastsIn.trans {value next after : Value} (first : value.LastsIn next)
    (second : next.LastsIn after) : value.LastsIn after :=
  fun path scalar isScalar => second path scalar (first path scalar isScalar)

/-- A table lasts in another one if what it has under each name lasts there. -/
theorem lastsIn_table {entries others : Entries String Value}
    (lasts : ∀ name value, Entries.get? name entries = some value →
      ∃ other, Entries.get? name others = some other ∧ value.LastsIn other) :
    (Value.table entries).LastsIn (.table others) := by
  intro path scalar isScalar
  match path with
  | [] => simp [at?] at isScalar
  | .index index :: path => simp [at?] at isScalar
  | .name name :: path =>
      obtain ⟨value, isValue, inValue⟩ := Option.bind_eq_some_iff.mp isScalar
      obtain ⟨other, isOther, lastsInOther⟩ := lasts name value isValue
      rw [at?, isOther]
      exact lastsInOther path scalar inValue

theorem lastsIn_put {name : String} {entries : Entries String Value} {after : Value}
    (lasts : ∀ value, Entries.get? name entries = some value → value.LastsIn after) :
    (Value.table entries).LastsIn (.table (Entries.put name after entries)) := by
  refine lastsIn_table fun other value isValue => ?_
  by_cases same : other = name
  · subst same
    exact ⟨after, Entries.get?_put_self other after entries, lasts value isValue⟩
  · exact ⟨value, by rw [Entries.get?_put_of_ne same, isValue], lastsIn_refl value⟩

theorem lastsIn_append (items more : List Value) :
    (Value.array items).LastsIn (.array (items ++ more)) := by
  intro path scalar isScalar
  match path with
  | [] => simp [at?] at isScalar
  | .name name :: path => simp [at?] at isScalar
  | .index index :: path =>
      obtain ⟨item, isItem, inItem⟩ := Option.bind_eq_some_iff.mp isScalar
      have isShort := (List.getElem?_eq_some_iff.mp isItem).1
      rw [at?, List.getElem?_append_left isShort, isItem]
      exact inItem

theorem lastsIn_concat {items : List Value} {last after : Value} (lasts : last.LastsIn after) :
    (Value.array (items ++ [last])).LastsIn (.array (items ++ [after])) := by
  intro path scalar isScalar
  match path with
  | [] => simp [at?] at isScalar
  | .name name :: path => simp [at?] at isScalar
  | .index index :: path =>
      obtain ⟨item, isItem, inItem⟩ := Option.bind_eq_some_iff.mp isScalar
      rw [at?]
      rcases Nat.lt_trichotomy index items.length with isShort | isLast | isLong
      · rw [List.getElem?_append_left isShort] at isItem ⊢
        rw [isItem]
        exact inItem
      · subst isLast
        rw [List.getElem?_concat_length] at isItem ⊢
        obtain rfl := Option.some.inj isItem
        exact lasts path scalar inItem
      · rw [List.getElem?_eq_none (by rwa [List.length_append])] at isItem
        contradiction

end Value

namespace Toml

/-! ## Changes of tables -/

/-- A change of a table that takes no scalar away. -/
def Adds (change : Entries String Value → Except Fault (Entries String Value)) : Prop :=
  ∀ {entries changed}, change entries = .ok changed →
    (Value.table entries).LastsIn (.table changed)

theorem adds_ok : Adds Except.ok := by
  intro entries changed isChanged
  obtain rfl := Except.ok.inj isChanged
  exact Value.lastsIn_refl _

theorem adds_addNew (taken : Fault) (name : String) (value : Value) :
    Adds (addNew taken name value) := by
  intro entries changed isChanged
  rw [addNew] at isChanged
  split at isChanged
  · contradiction
  next isNew =>
    obtain rfl := Except.ok.inj isChanged
    refine Value.lastsIn_table fun other found isFound => ⟨found, ?_, Value.lastsIn_refl found⟩
    rw [Entries.get?_append, isFound, Option.some_or]

theorem adds_appendTable (name : String) : Adds (Builder.appendTable name) := by
  intro entries changed isChanged
  rw [Builder.appendTable] at isChanged
  split at isChanged
  next =>
    obtain rfl := Except.ok.inj isChanged
    refine Value.lastsIn_table fun other found isFound => ⟨found, ?_, Value.lastsIn_refl found⟩
    rw [Entries.get?_append, isFound, Option.some_or]
  next items areItems =>
    obtain rfl := Except.ok.inj isChanged
    refine Value.lastsIn_put fun value isValue => ?_
    rw [areItems] at isValue
    exact Option.some.inj isValue ▸ Value.lastsIn_append items _
  next => contradiction

theorem adds_changeTable (throughArrays : Bool)
    {change : Entries String Value → Except Fault (Entries String Value)} (adds : Adds change)
    (path : Key) : Adds (changeTable throughArrays change path) := by
  induction path with
  | nil => exact adds
  | cons name path ih =>
      intro entries changed isChanged
      rw [changeTable] at isChanged
      split at isChanged
      next isNew =>
        obtain ⟨inner, -, same⟩ := bind_eq_ok_iff.mp isChanged
        obtain rfl := Except.ok.inj same
        exact Value.lastsIn_put fun value isValue => by simp [isNew] at isValue
      next table isTable =>
        obtain ⟨inner, isInner, same⟩ := bind_eq_ok_iff.mp isChanged
        obtain rfl := Except.ok.inj same
        refine Value.lastsIn_put fun value isValue => ?_
        rw [isTable] at isValue
        exact Option.some.inj isValue ▸ ih isInner
      next items areItems =>
        split at isChanged
        next last isLast =>
          obtain ⟨inner, isInner, same⟩ := bind_eq_ok_iff.mp isChanged
          obtain rfl := Except.ok.inj same
          refine Value.lastsIn_put fun value isValue => ?_
          rw [areItems] at isValue
          obtain rfl := Option.some.inj isValue
          obtain ⟨front, rfl⟩ := List.getLast?_eq_some_iff.mp isLast
          rw [List.dropLast_concat]
          exact Value.lastsIn_concat (ih isInner)
        next => contradiction
      next => contradiction

/-! ## Statements -/

/-- What a part of a document says lasts in a longer part. -/
def Builder.LastsIn (builder after : Builder) : Prop :=
  (Value.table builder.entries).LastsIn (.table after.entries)

theorem adds_of_statementChange
    {change : Entries String Value → Except Fault (Entries String Value)}
    (isChange : StatementChange change) : Adds change := by
  cases isChange with
  | opens => exact adds_ok
  | appends name => exact adds_appendTable name
  | adds _ taken name => exact adds_addNew taken name _

/-- What was read lasts to the end of the document. -/
theorem lastsIn_statements {steps : Nat} {builder final : Builder} {text : Text}
    (isRead : statements steps builder text = .ok final) : builder.LastsIn final := by
  have step {before after : Entries String Value} (changes : ChangesEntries before after)
      (lasts : (Value.table builder.entries).LastsIn (.table before)) :
      (Value.table builder.entries).LastsIn (.table after) := by
    obtain ⟨change, path, isChange, isChanged⟩ := changes
    exact lasts.trans (adds_changeTable true (adds_of_statementChange isChange) path isChanged)
  exact holds_of_statements step isRead (Value.lastsIn_refl _)

end Toml

end ApiWorkshop
