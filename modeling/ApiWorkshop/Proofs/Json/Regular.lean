import ApiWorkshop.Proofs.Api.Reading
import ApiWorkshop.Proofs.Entries
import ApiWorkshop.Proofs.Json.Escapes
import ApiWorkshop.Proofs.Number.Rounded

/-!
# Regular JSON data

Data is regular if no object in it has a key twice, no integer in it is too long and no
text in it has adjacent halves of a surrogate pair, with rules for its numbers and keys
besides.  What the reader gives is always regular.
-/

namespace ApiWorkshop

/-- Data with distinct keys in its objects, texts without adjacent halves and integers that
can be written, at any depth; the floating-point numbers and the keys obey a rule each. -/
inductive JsonValue.Regular (isNumber : Binary64 → Prop) (isKey : LooseText → Prop) :
    JsonValue → Prop
  | null : Regular isNumber isKey .null
  | bool (part : Bool) : Regular isNumber isKey (.bool part)
  | int {part : Int} (canWrite : Decimal.isWritable part = true) : Regular isNumber isKey (.int part)
  | float {part : Binary64} (isAllowed : isNumber part) : Regular isNumber isKey (.float part)
  | string {part : LooseText} (isApart : part.IsApart) : Regular isNumber isKey (.string part)
  | array {items : List JsonValue} (areRegular : ∀ item ∈ items, Regular isNumber isKey item) :
      Regular isNumber isKey (.array items)
  | object {entries : List (LooseText × JsonValue)} (distinct : (Entries.keys entries).Nodup)
      (areKeys : ∀ entry ∈ entries, isKey entry.1)
      (areRegular : ∀ entry ∈ entries, Regular isNumber isKey entry.2) :
      Regular isNumber isKey (.object entries)

namespace JsonValue

variable {isNumber : Binary64 → Prop} {isKey : LooseText → Prop}

theorem Regular.imp {isOther : Binary64 → Prop} {isOtherKey : LooseText → Prop}
    (numbers : ∀ part, isNumber part → isOther part) (keys : ∀ key, isKey key → isOtherKey key)
    {content : JsonValue} (regular : content.Regular isNumber isKey) :
    content.Regular isOther isOtherKey := by
  induction regular with
  | null => exact .null
  | bool part => exact .bool part
  | int canWrite => exact .int canWrite
  | float isAllowed => exact .float (numbers _ isAllowed)
  | string isApart => exact .string isApart
  | array _ ih => exact .array ih
  | object distinct areKeys _ ih =>
      exact .object distinct (fun entry member => keys _ (areKeys entry member)) ih

end JsonValue

theorem Decimal.isWritable_of_integer? {negative : Bool} {digits : Text} {value : Int}
    (areDigits : ∀ c ∈ digits, Text.isDigit c = true)
    (isInteger : integer? negative digits = some value) : isWritable value = true := by
  have isBelow {limit : Nat} (isShort : digits.length ≤ limit) :
      Text.decimal digits < Nat.pow 10 limit :=
    Nat.lt_of_lt_of_le (Text.decimal_lt areDigits) (Nat.pow_le_pow_right (by decide) isShort)
  rw [integer?] at isInteger
  split at isInteger
  next isShort =>
    have sameSize : value.natAbs = Text.decimal digits := by
      rw [← Option.some.inj isInteger]
      split <;> omega
    rw [isWritable, sameSize, decide_eq_true_iff]
    delta sizeBound
    exact isBelow isShort
  next => contradiction

namespace Json

/-- Data as the reader gives it. -/
abbrev IsReadValue (content : JsonValue) : Prop :=
  content.Regular Binary64.IsRounded LooseText.IsApart

theorem needed_eq_ok_iff {α : Type} {part : Option α} {found : α} :
    needed part = .ok found ↔ part = some found := by
  cases part <;> simp [needed]

theorem isApart_of_stringRest? {text rest : Text} {found : LooseText}
    (isRead : stringRest? text = some (found, rest)) : found.IsApart := by
  obtain ⟨⟨codes, behind⟩, -, same⟩ := Option.bind_eq_some_iff.mp isRead
  obtain ⟨rfl, -⟩ := Prod.mk.inj (Option.some.inj same)
  exact isApart_ofCodes codes

theorem isApart_of_key? {text rest : Text} {key : LooseText}
    (isRead : key? text = some (key, rest)) : key.IsApart := by
  rw [key?.eq_def] at isRead
  split at isRead
  next =>
    obtain ⟨⟨found, behind⟩, isString, isRead⟩ := Option.bind_eq_some_iff.mp isRead
    dsimp only at isRead
    split at isRead
    next =>
      obtain ⟨rfl, -⟩ := Prod.mk.inj (Option.some.inj isRead)
      exact isApart_of_stringRest? isString
    next => contradiction
  next => contradiction

theorem isDigit_of_mem_wholeDigits {text : Text} :
    ∀ c ∈ (wholeDigits text).1, Text.isDigit c = true := by
  rw [wholeDigits.eq_def]
  split
  · exact List.forall_mem_singleton.mpr rfl
  · exact List.all_eq_true.mp List.all_takeWhile

theorem isReadValue_of_unsignedNumber? {negative : Bool} {text rest : Text} {found : JsonValue}
    (isRead : unsignedNumber? negative text = some (some found, rest)) : IsReadValue found := by
  rw [unsignedNumber?] at isRead
  dsimp only at isRead
  split at isRead
  · contradiction
  · split at isRead
    · obtain ⟨isInteger, -⟩ := Prod.mk.inj (Option.some.inj isRead)
      obtain ⟨integer, isSome, rfl⟩ := Option.map_eq_some_iff.mp isInteger
      exact .int (Decimal.isWritable_of_integer? isDigit_of_mem_wholeDigits isSome)
    · obtain ⟨isFloat, -⟩ := Prod.mk.inj (Option.some.inj isRead)
      obtain rfl := Option.some.inj isFloat
      exact .float (Binary64.isRounded_ofDecimal ..)

theorem isReadValue_of_word? {text rest : Text} {found : JsonValue}
    (isRead : word? text = some (found, rest)) : IsReadValue found := by
  obtain ⟨⟨word, value⟩, member, isRead⟩ := List.exists_of_findSome?_eq_some isRead
  obtain ⟨behind, -, same⟩ := Option.map_eq_some_iff.mp isRead
  obtain ⟨rfl, -⟩ := Prod.mk.inj same
  have areRead : ∀ entry ∈ words, IsReadValue entry.2 := by
    simp only [words, List.forall_mem_cons]
    exact ⟨.null, .bool true, .bool false, .float trivial, .float trivial, .float trivial, nofun⟩
  exact areRead _ member

theorem isReadValue_of_wordOrNumber {text rest : Text} {found : JsonValue}
    (isRead : wordOrNumber text = .ok (found, rest)) : IsReadValue found := by
  rw [wordOrNumber] at isRead
  split at isRead
  next isWord =>
    obtain rfl := Except.ok.inj isRead
    exact isReadValue_of_word? isWord
  next isNumber =>
    obtain ⟨rfl, -⟩ := Prod.mk.inj (Except.ok.inj isRead)
    rw [number?.eq_def] at isNumber
    split at isNumber
    · exact isReadValue_of_unsignedNumber? isNumber
    · exact isReadValue_of_unsignedNumber? isNumber
  · contradiction
  · contradiction

mutual

/-- What is read as a value is regular. -/
theorem isReadValue_of_valueIn :
    ∀ {steps : Nat} {text rest : Text} {found : JsonValue},
      valueIn steps text = .ok (found, rest) → IsReadValue found
  | 0, _, _, _, isRead => nomatch isRead
  | steps + 1, text, rest, found, isRead => by
      rw [valueIn.eq_def] at isRead
      dsimp only at isRead
      split at isRead
      next =>
        obtain ⟨⟨inside, behind⟩, isString, same⟩ := bind_eq_ok_iff.mp isRead
        obtain ⟨rfl, -⟩ := Prod.mk.inj (Except.ok.inj same)
        exact .string (isApart_of_stringRest? (needed_eq_ok_iff.mp isString))
      next =>
        split at isRead
        next =>
          obtain ⟨rfl, -⟩ := Prod.mk.inj (Except.ok.inj isRead)
          exact .array nofun
        next =>
          obtain ⟨⟨items, behind⟩, areItems, same⟩ := bind_eq_ok_iff.mp isRead
          obtain ⟨rfl, -⟩ := Prod.mk.inj (Except.ok.inj same)
          exact .array (areReadValues_of_itemsIn areItems)
      next =>
        split at isRead
        next =>
          obtain ⟨rfl, -⟩ := Prod.mk.inj (Except.ok.inj isRead)
          exact .object .nil nofun nofun
        next =>
          obtain ⟨⟨entries, behind⟩, areEntries, same⟩ := bind_eq_ok_iff.mp isRead
          obtain ⟨rfl, -⟩ := Prod.mk.inj (Except.ok.inj same)
          have areRead := areReadEntries_of_entriesIn areEntries
          exact .object (Entries.nodup_keys_ofPairs entries)
            (fun entry member => (areRead entry (Entries.mem_of_mem_ofPairs member)).1)
            fun entry member => (areRead entry (Entries.mem_of_mem_ofPairs member)).2
      next => exact isReadValue_of_wordOrNumber isRead

theorem areReadValues_of_itemsIn :
    ∀ {steps : Nat} {text rest : Text} {items : List JsonValue},
      itemsIn steps text = .ok (items, rest) → ∀ item ∈ items, IsReadValue item
  | 0, _, _, _, areRead => nomatch areRead
  | steps + 1, text, rest, items, areRead => by
      rw [itemsIn] at areRead
      obtain ⟨⟨item, behind⟩, isItem, areRead⟩ := bind_eq_ok_iff.mp areRead
      have isFirst := isReadValue_of_valueIn isItem
      dsimp only at areRead
      split at areRead
      next =>
        obtain ⟨rfl, -⟩ := Prod.mk.inj (Except.ok.inj areRead)
        exact List.forall_mem_singleton.mpr isFirst
      next =>
        obtain ⟨⟨others, behind⟩, areOthers, same⟩ := bind_eq_ok_iff.mp areRead
        obtain ⟨rfl, -⟩ := Prod.mk.inj (Except.ok.inj same)
        exact List.forall_mem_cons.mpr ⟨isFirst, areReadValues_of_itemsIn areOthers⟩
      next => contradiction

theorem areReadEntries_of_entriesIn :
    ∀ {steps : Nat} {text rest : Text} {entries : List (LooseText × JsonValue)},
      entriesIn steps text = .ok (entries, rest) →
        ∀ entry ∈ entries, entry.1.IsApart ∧ IsReadValue entry.2
  | 0, _, _, _, areRead => nomatch areRead
  | steps + 1, text, rest, entries, areRead => by
      rw [entriesIn] at areRead
      obtain ⟨⟨key, afterKey⟩, isKey, areRead⟩ := bind_eq_ok_iff.mp areRead
      obtain ⟨⟨inner, behind⟩, isInner, areRead⟩ := bind_eq_ok_iff.mp areRead
      have isFirst : key.IsApart ∧ IsReadValue inner :=
        ⟨isApart_of_key? (needed_eq_ok_iff.mp isKey), isReadValue_of_valueIn isInner⟩
      dsimp only at areRead
      split at areRead
      next =>
        obtain ⟨rfl, -⟩ := Prod.mk.inj (Except.ok.inj areRead)
        exact List.forall_mem_singleton.mpr isFirst
      next =>
        obtain ⟨⟨others, behind⟩, areOthers, same⟩ := bind_eq_ok_iff.mp areRead
        obtain ⟨rfl, -⟩ := Prod.mk.inj (Except.ok.inj same)
        exact List.forall_mem_cons.mpr ⟨isFirst, areReadEntries_of_entriesIn areOthers⟩
      next => contradiction

end

/-- What is read from a text is regular. -/
theorem isReadValue_of_read {text : Text} {found : JsonValue} (isRead : read text = .ok found) :
    IsReadValue found := by
  obtain ⟨⟨value, behind⟩, isValue, isRead⟩ := bind_eq_ok_iff.mp isRead
  dsimp only at isRead
  split at isRead
  next =>
    obtain rfl := Except.ok.inj isRead
    exact isReadValue_of_valueIn isValue
  next => contradiction

end Json

end ApiWorkshop
