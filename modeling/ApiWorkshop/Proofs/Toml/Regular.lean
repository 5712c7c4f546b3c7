import ApiWorkshop.Proofs.Api.Reading
import ApiWorkshop.Proofs.Value.Regular
import ApiWorkshop.Toml.Report

/-!
# Documents are regular

Reading a document never gives a table with a key twice: a name is added to a
table only if it is new there, and else the value under it is changed in place.
The changes that a statement can make are told here once.
-/

namespace ApiWorkshop

namespace Toml

/-- A value as it is read. -/
abbrev IsReadValue (value : Value) : Prop :=
  value.Regular Scalar.IsRead

theorem isReadValue_empty : IsReadValue (.table []) :=
  .table List.nodup_nil fun _ member => absurd member List.not_mem_nil

/-! ## Scalars -/

theorem isReadValue_of_dateValue? {text rest : Text} {value : Value}
    (isRead : dateValue? text = some (some value, rest)) : IsReadValue value := by
  obtain ⟨⟨⟨year, month, day⟩, afterDate⟩, -, isRead⟩ := Option.bind_eq_some_iff.mp isRead
  dsimp only at isRead
  split at isRead
  next =>
    obtain ⟨isDate, -⟩ := Prod.mk.inj (Option.some.inj isRead)
    obtain ⟨date, -, rfl⟩ := Option.map_eq_some_iff.mp isDate
    exact .scalar trivial
  next =>
    split at isRead
    next =>
      obtain ⟨isDateTime, -⟩ := Prod.mk.inj (Option.some.inj isRead)
      obtain rfl := Option.some.inj isDateTime
      exact .scalar trivial
    next => simp at isRead

theorem isReadValue_of_clockValue? {text rest : Text} {value : Value}
    (isRead : clockValue? text = some (value, rest)) : IsReadValue value := by
  obtain ⟨⟨parts, afterClock⟩, -, isRead⟩ := Option.bind_eq_some_iff.mp isRead
  obtain ⟨clock, -, isRead⟩ := Option.bind_eq_some_iff.mp isRead
  obtain ⟨rfl, -⟩ := Prod.mk.inj (Option.some.inj isRead)
  exact .scalar trivial

theorem isReadValue_of_unsignedNumber? {negative : Bool} {text rest : Text} {value : Value}
    (isRead : unsignedNumber? negative text = some (some value, rest)) : IsReadValue value := by
  have ofInteger {integer : Option Int} {after : Text}
      (same : some (integer.map Value.int, after) = some (some value, rest)) :
      IsReadValue value := by
    obtain ⟨isInteger, -⟩ := Prod.mk.inj (Option.some.inj same)
    obtain ⟨integer, -, rfl⟩ := Option.map_eq_some_iff.mp isInteger
    exact .scalar trivial
  have ofNumber {coefficient : Nat} {exponent : Int} {after : Text}
      (same : some (some (Value.float (.ofDecimal negative coefficient exponent)), after) =
        some (some value, rest)) : IsReadValue value := by
    obtain ⟨isNumber, -⟩ := Prod.mk.inj (Option.some.inj same)
    obtain rfl := Option.some.inj isNumber
    exact .scalar (Binary64.isRounded_ofDecimal ..)
  rw [unsignedNumber?.eq_def] at isRead
  split at isRead
  dsimp only at isRead
  split at isRead
  · contradiction
  · split at isRead
    · split at isRead
      · exact ofInteger isRead
      · exact ofNumber isRead
    · split at isRead
      · exact ofInteger isRead
      · exact ofNumber isRead

theorem isReadValue_of_basedInteger? {base : Nat} {text rest : Text} {value : Value}
    (isRead : basedInteger? base text = some (value, rest)) : IsReadValue value := by
  rw [basedInteger?] at isRead
  split at isRead
  · contradiction
  · obtain ⟨rfl, -⟩ := Prod.mk.inj (Option.some.inj isRead)
    exact .scalar trivial

theorem isReadValue_of_number? {text rest : Text} {value : Value}
    (isRead : number? text = some (some value, rest)) : IsReadValue value := by
  rw [number?.eq_def] at isRead
  dsimp only at isRead
  split at isRead
  next isBased =>
    obtain ⟨same, -⟩ := Prod.mk.inj (Option.some.inj isRead)
    obtain rfl := Option.some.inj same
    split at isBased
    · exact isReadValue_of_basedInteger? isBased
    · exact isReadValue_of_basedInteger? isBased
    · exact isReadValue_of_basedInteger? isBased
    · contradiction
  next => split at isRead <;> exact isReadValue_of_unsignedNumber? isRead

theorem isReadValue_of_word? {text rest : Text} {value : Value}
    (isRead : word? text = some (value, rest)) : IsReadValue value := by
  obtain ⟨⟨word, found⟩, member, isFound⟩ := List.exists_of_findSome?_eq_some isRead
  obtain ⟨after, -, same⟩ := Option.map_eq_some_iff.mp isFound
  obtain ⟨rfl, -⟩ := Prod.mk.inj same
  simp only [words, List.mem_cons, Prod.mk.injEq, List.not_mem_nil, or_false] at member
  rcases member with ⟨-, rfl⟩ | ⟨-, rfl⟩ | ⟨-, rfl⟩ | ⟨-, rfl⟩ | ⟨-, rfl⟩ | ⟨-, rfl⟩ | ⟨-, rfl⟩ |
    ⟨-, rfl⟩ <;> exact .scalar trivial

theorem isReadValue_of_scalarValue {text rest : Text} {value : Value}
    (isRead : scalarValue text = .ok (value, rest)) : IsReadValue value := by
  rw [scalarValue] at isRead
  split at isRead
  next isDate =>
    cases isRead
    exact isReadValue_of_dateValue? isDate
  next => contradiction
  next =>
    split at isRead
    next isClock =>
      cases isRead
      exact isReadValue_of_clockValue? isClock
    next isNumber =>
      cases isRead
      exact isReadValue_of_number? isNumber
    next => contradiction
    next isWord =>
      cases isRead
      exact isReadValue_of_word? isWord
    next => contradiction

/-! ## Changes of tables -/

/-- A change of a table that keeps it regular. -/
def KeepsRegular (change : Entries String Value → Except Fault (Entries String Value)) : Prop :=
  ∀ {entries changed}, IsReadValue (.table entries) → change entries = .ok changed →
    IsReadValue (.table changed)

theorem keepsRegular_addNew (taken : Fault) (name : String) {value : Value}
    (isRead : IsReadValue value) : KeepsRegular (addNew taken name value) := by
  intro entries changed regular isChanged
  rw [addNew] at isChanged
  split at isChanged
  · contradiction
  next isNew =>
    obtain rfl := Except.ok.inj isChanged
    have notKey : name ∉ Entries.keys entries := fun member =>
      isNew (Entries.isSome_get?_of_mem_keys member)
    rw [← Entries.put_of_not_mem value notKey]
    exact regular.put isRead name

theorem keepsRegular_changeTable (throughArrays : Bool)
    {change : Entries String Value → Except Fault (Entries String Value)}
    (keeps : KeepsRegular change) (path : Key) :
    KeepsRegular (changeTable throughArrays change path) := by
  induction path with
  | nil => exact keeps
  | cons name path ih =>
      intro entries changed regular isChanged
      rw [changeTable] at isChanged
      split at isChanged
      next =>
        obtain ⟨inner, isInner, same⟩ := bind_eq_ok_iff.mp isChanged
        obtain rfl := Except.ok.inj same
        exact regular.put (ih isReadValue_empty isInner) name
      next table isTable =>
        obtain ⟨inner, isInner, same⟩ := bind_eq_ok_iff.mp isChanged
        obtain rfl := Except.ok.inj same
        exact regular.put (ih (regular.get? isTable) isInner) name
      next items areItems =>
        have itemsRegular := (regular.get? areItems).items
        split at isChanged
        next last isLast =>
          obtain ⟨inner, isInner, same⟩ := bind_eq_ok_iff.mp isChanged
          obtain rfl := Except.ok.inj same
          refine regular.put (.array fun item member => ?_) name
          rcases List.mem_append.mp member with inFront | isLastItem
          · exact itemsRegular item (List.dropLast_subset _ inFront)
          · obtain rfl := List.mem_singleton.mp isLastItem
            exact ih (itemsRegular _ (List.mem_of_getLast? isLast)) isInner
        next => contradiction
      next => contradiction

theorem keepsRegular_appendTable (name : String) : KeepsRegular (Builder.appendTable name) := by
  intro entries changed regular isChanged
  rw [Builder.appendTable] at isChanged
  split at isChanged
  next isNew =>
    obtain rfl := Except.ok.inj isChanged
    have notKey : name ∉ Entries.keys entries := fun member => by
      simpa [isNew] using Entries.isSome_get?_of_mem_keys member
    rw [← Entries.put_of_not_mem _ notKey]
    exact regular.put (.array (List.forall_mem_singleton.mpr isReadValue_empty)) name
  next items areItems =>
    obtain rfl := Except.ok.inj isChanged
    refine regular.put (.array (List.forall_mem_append.mpr ?_)) name
    exact ⟨(regular.get? areItems).items, List.forall_mem_singleton.mpr isReadValue_empty⟩
  next => contradiction

theorem keepsRegular_addInlinePair (sealedKeys : List Key) (key : Key) {value : Value}
    (isRead : IsReadValue value) : KeepsRegular (addInlinePair sealedKeys key value) := by
  intro entries changed regular isChanged
  rw [addInlinePair] at isChanged
  split at isChanged
  · contradiction
  · exact keepsRegular_changeTable false (keepsRegular_addNew _ _ isRead) _ regular isChanged

/-! ## Values -/

theorem stoppedAt_eq_ok_iff {α : Type} {rest : Text} {result : Except Fault α} {value : α} :
    stoppedAt rest result = .ok value ↔ result = .ok value := by
  cases result <;> simp [stoppedAt, stop]

/-- What is read in a number of steps is regular. -/
structure ReadsRegular (steps : Nat) : Prop where
  value : ∀ {text rest found}, valueIn steps text = .ok (found, rest) → IsReadValue found
  items : ∀ {text rest found}, itemsIn steps text = .ok (found, rest) →
    ∀ item ∈ found, IsReadValue item
  pairs : ∀ {sealedKeys entries text rest found}, IsReadValue (.table entries) →
    pairsIn steps sealedKeys entries text = .ok (found, rest) → IsReadValue (.table found)
  keyValue : ∀ {text rest key found}, keyValueIn steps text = .ok ((key, found), rest) →
    IsReadValue found

theorem ReadsRegular.zero : ReadsRegular 0 := by
  refine ⟨?_, ?_, ?_, ?_⟩
  · intro text rest found isRead
    simp [valueIn, stop] at isRead
  · intro text rest found isRead
    simp [itemsIn, stop] at isRead
  · intro sealedKeys entries text rest found _ isRead
    simp [pairsIn, stop] at isRead
  · intro text rest key found isRead
    simp [keyValueIn, stop] at isRead

theorem ReadsRegular.value_succ {steps : Nat} (reads : ReadsRegular steps) {text rest : Text}
    {found : Value} (isRead : valueIn (steps + 1) text = .ok (found, rest)) :
    IsReadValue found := by
  rw [valueIn.eq_def] at isRead
  dsimp only at isRead
  split at isRead
  · obtain ⟨inside, -, same⟩ := bind_eq_ok_iff.mp isRead
    cases same
    exact .scalar trivial
  · obtain ⟨inside, -, same⟩ := bind_eq_ok_iff.mp isRead
    cases same
    exact .scalar trivial
  · obtain ⟨afterTrivia, -, isRead⟩ := bind_eq_ok_iff.mp isRead
    obtain ⟨⟨items, afterItems⟩, areItems, same⟩ := bind_eq_ok_iff.mp isRead
    cases same
    exact .array (reads.items areItems)
  · split at isRead
    · cases isRead
      exact isReadValue_empty
    · obtain ⟨⟨entries, afterEntries⟩, areEntries, same⟩ := bind_eq_ok_iff.mp isRead
      cases same
      exact reads.pairs isReadValue_empty areEntries
  · exact isReadValue_of_scalarValue isRead

theorem ReadsRegular.items_succ {steps : Nat} (reads : ReadsRegular steps) {text rest : Text}
    {found : List Value} (isRead : itemsIn (steps + 1) text = .ok (found, rest)) :
    ∀ item ∈ found, IsReadValue item := by
  rw [itemsIn.eq_def] at isRead
  dsimp only at isRead
  split at isRead
  · cases isRead
    simp
  · obtain ⟨⟨item, afterItem⟩, isItem, isRead⟩ := bind_eq_ok_iff.mp isRead
    obtain ⟨afterTrivia, -, isRead⟩ := bind_eq_ok_iff.mp isRead
    split at isRead
    · cases isRead
      exact List.forall_mem_singleton.mpr (reads.value isItem)
    · obtain ⟨next, -, isRead⟩ := bind_eq_ok_iff.mp isRead
      obtain ⟨⟨items, afterItems⟩, areItems, same⟩ := bind_eq_ok_iff.mp isRead
      cases same
      exact List.forall_mem_cons.mpr ⟨reads.value isItem, reads.items areItems⟩
    · contradiction

theorem ReadsRegular.pairs_succ {steps : Nat} (reads : ReadsRegular steps)
    {sealedKeys : List Key} {entries found : Entries String Value} {text rest : Text}
    (regular : IsReadValue (.table entries))
    (isRead : pairsIn (steps + 1) sealedKeys entries text = .ok (found, rest)) :
    IsReadValue (.table found) := by
  rw [pairsIn] at isRead
  obtain ⟨⟨⟨key, value⟩, afterPair⟩, isPair, isRead⟩ := bind_eq_ok_iff.mp isRead
  obtain ⟨added, isAdded, isRead⟩ := bind_eq_ok_iff.mp isRead
  have addedRegular := keepsRegular_addInlinePair sealedKeys key (reads.keyValue isPair)
    regular (stoppedAt_eq_ok_iff.mp isAdded)
  split at isRead
  · cases isRead
    exact addedRegular
  · exact reads.pairs addedRegular isRead
  · contradiction

theorem ReadsRegular.keyValue_succ {steps : Nat} (reads : ReadsRegular steps) {text rest : Text}
    {key : Key} {found : Value} (isRead : keyValueIn (steps + 1) text = .ok ((key, found), rest)) :
    IsReadValue found := by
  rw [keyValueIn] at isRead
  obtain ⟨⟨readKey, afterKey⟩, -, isRead⟩ := bind_eq_ok_iff.mp isRead
  dsimp only at isRead
  split at isRead
  · obtain ⟨⟨value, afterValue⟩, isValue, same⟩ := bind_eq_ok_iff.mp isRead
    cases same
    exact reads.value isValue
  · contradiction

theorem readsRegular (steps : Nat) : ReadsRegular steps := by
  -- the four readers call each other with one step less, so they are regular together
  induction steps with
  | zero => exact .zero
  | succ steps ih =>
      exact ⟨ih.value_succ, ih.items_succ, ih.pairs_succ, ih.keyValue_succ⟩

/-! ## Documents -/

/-- A change that a statement makes to the table that its key leads to. -/
inductive StatementChange :
    (Entries String Value → Except Fault (Entries String Value)) → Prop
  | opens : StatementChange .ok
  | appends (name : String) : StatementChange (Builder.appendTable name)
  | adds {text rest : Text} {key : Key} {value : Value}
      (isPair : keyValue text = .ok ((key, value), rest)) (taken : Fault) (name : String) :
      StatementChange (addNew taken name value)

/-- One table among some entries is changed as a statement changes it. -/
def ChangesEntries (before after : Entries String Value) : Prop :=
  ∃ change path, StatementChange change ∧ changeTable true change path before = .ok after

theorem changesEntries_of_addPair {key : Key} {value : Value} {text rest : Text}
    (isPair : keyValue text = .ok ((key, value), rest)) {builder changed : Builder}
    (isChanged : builder.addPair key value = .ok changed) :
    ChangesEntries builder.entries changed.entries := by
  rw [Builder.addPair] at isChanged
  split at isChanged
  · contradiction
  · split at isChanged
    · contradiction
    · obtain ⟨entries, areEntries, same⟩ := bind_eq_ok_iff.mp isChanged
      obtain rfl := Except.ok.inj same
      exact ⟨_, _, .adds isPair _ _, areEntries⟩

theorem changesEntries_of_openTable {key : Key} {builder changed : Builder}
    (isChanged : builder.openTable key = .ok changed) :
    ChangesEntries builder.entries changed.entries := by
  rw [Builder.openTable] at isChanged
  split at isChanged
  · contradiction
  · obtain ⟨entries, areEntries, same⟩ := bind_eq_ok_iff.mp isChanged
    obtain rfl := Except.ok.inj same
    exact ⟨_, _, .opens, areEntries⟩

theorem changesEntries_of_openItem {key : Key} {builder changed : Builder}
    (isChanged : builder.openItem key = .ok changed) :
    ChangesEntries builder.entries changed.entries := by
  rw [Builder.openItem] at isChanged
  split at isChanged
  · contradiction
  · obtain ⟨entries, areEntries, same⟩ := bind_eq_ok_iff.mp isChanged
    obtain rfl := Except.ok.inj same
    exact ⟨_, _, .appends _, areEntries⟩

/-- A statement leaves the entries as they are or changes one table among them. -/
theorem entries_of_statement {builder changed : Builder} {text rest : Text}
    (isRead : statement builder text = .ok (changed, rest)) :
    changed.entries = builder.entries ∨ ChangesEntries builder.entries changed.entries := by
  rw [statement.eq_def] at isRead
  split at isRead
  · obtain ⟨⟨key, afterKey⟩, -, isRead⟩ := bind_eq_ok_iff.mp isRead
    obtain ⟨opened, isOpened, isRead⟩ := bind_eq_ok_iff.mp isRead
    have changes := changesEntries_of_openItem (stoppedAt_eq_ok_iff.mp isOpened)
    split at isRead
    · cases isRead
      exact .inr changes
    · contradiction
  · obtain ⟨⟨key, afterKey⟩, -, isRead⟩ := bind_eq_ok_iff.mp isRead
    obtain ⟨opened, isOpened, isRead⟩ := bind_eq_ok_iff.mp isRead
    have changes := changesEntries_of_openTable (stoppedAt_eq_ok_iff.mp isOpened)
    split at isRead
    · cases isRead
      exact .inr changes
    · contradiction
  · cases isRead
    exact .inl rfl
  · split at isRead
    · obtain ⟨⟨⟨key, value⟩, after⟩, isPair, isRead⟩ := bind_eq_ok_iff.mp isRead
      obtain ⟨added, isAdded, same⟩ := bind_eq_ok_iff.mp isRead
      cases same
      exact .inr (changesEntries_of_addPair isPair (stoppedAt_eq_ok_iff.mp isAdded))
    · contradiction
  · cases isRead
    exact .inl rfl

/-- What every change of a statement keeps holds of the entries in the end. -/
theorem holds_of_statements {holds : Entries String Value → Prop}
    (step : ∀ {before after}, ChangesEntries before after → holds before → holds after)
    {steps : Nat} {builder final : Builder} {text : Text}
    (isRead : statements steps builder text = .ok final) (start : holds builder.entries) :
    holds final.entries := by
  induction steps generalizing builder text with
  | zero =>
      cases isRead
      exact start
  | succ steps ih =>
      rw [statements] at isRead
      split at isRead
      · cases isRead
        exact start
      · exact ih isRead start
      · obtain ⟨⟨next, afterStatement⟩, isNext, isRead⟩ := bind_eq_ok_iff.mp isRead
        obtain ⟨afterEnd, -, isRead⟩ := bind_eq_ok_iff.mp isRead
        refine ih isRead ?_
        rcases entries_of_statement isNext with same | changes
        · exact same ▸ start
        · exact step changes start

theorem keepsRegular_of_statementChange
    {change : Entries String Value → Except Fault (Entries String Value)}
    (isChange : StatementChange change) : KeepsRegular change := by
  cases isChange with
  | opens => exact fun regular same => Except.ok.inj same ▸ regular
  | appends name => exact keepsRegular_appendTable name
  | adds isPair taken name => exact keepsRegular_addNew _ _ ((readsRegular _).keyValue isPair)

theorem regular_statements {steps : Nat} {builder changed : Builder} {text : Text}
    (regular : IsReadValue (.table builder.entries))
    (isRead : statements steps builder text = .ok changed) :
    IsReadValue (.table changed.entries) := by
  have step {before after : Entries String Value} (changes : ChangesEntries before after)
      (isRegular : IsReadValue (.table before)) : IsReadValue (.table after) := by
    obtain ⟨change, path, isChange, isChanged⟩ := changes
    exact keepsRegular_changeTable true (keepsRegular_of_statementChange isChange) path isRegular
      isChanged
  exact holds_of_statements step isRead regular

/-- A document that was read is regular. -/
theorem regular_of_decode {source : String} {text : Text} {document : Entries String Value}
    (isDecoded : decode source text = .ok document) : IsReadValue (.table document) := by
  rw [decode] at isDecoded
  split at isDecoded
  next entries areEntries =>
    obtain rfl := Except.ok.inj isDecoded
    obtain ⟨builder, isBuilt, same⟩ := bind_eq_ok_iff.mp areEntries
    obtain rfl := Except.ok.inj same
    exact regular_statements isReadValue_empty isBuilt
  next => contradiction

end Toml

end ApiWorkshop
