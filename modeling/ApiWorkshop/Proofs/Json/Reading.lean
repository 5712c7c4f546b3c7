import ApiWorkshop.Proofs.Api.Reading
import ApiWorkshop.Proofs.Entries
import ApiWorkshop.Proofs.Json.Tokens

/-!
# Texts of the grammar are read

The reader reads every text of the grammar as the data that the text denotes, if
no integer in the data is too long.
-/

namespace ApiWorkshop

/-! ## Integers -/

namespace Decimal

theorem length_le_of_lt {digits : Text} {limit : Nat} (isWhole : Json.IsWhole digits)
    (isPositive : 0 < limit) (isBelow : Text.decimal digits < Nat.pow 10 limit) :
    digits.length ≤ limit := by
  obtain ⟨c, rest, rfl⟩ := List.exists_cons_of_ne_nil isWhole.nonempty
  obtain ⟨isFirst, areRest⟩ := List.forall_mem_cons.mp isWhole.areDigits
  by_cases isZero : c = '0'
  · subst isZero
    rw [isWhole.zeroAlone rfl]
    exact isPositive
  · have isLarge := Text.pow_le_decimal isFirst isZero areRest
    exact (Nat.pow_lt_pow_iff_right (by decide)).mp (Nat.lt_of_le_of_lt isLarge isBelow)

/-- An integer that can be written can be read. -/
theorem integer?_of_isWhole {digits : Text} {negative : Bool} {value : Int}
    (isWhole : Json.IsWhole digits) (canWrite : isWritable value = true)
    (isValue : (if negative then -(Text.decimal digits : Int) else Text.decimal digits) = value) :
    integer? negative digits = some value := by
  have sameSize : value.natAbs = Text.decimal digits := by
    rw [← isValue]
    split <;> omega
  have isBelow : value.natAbs < sizeBound := of_decide_eq_true canWrite
  rw [sameSize] at isBelow
  delta sizeBound at isBelow
  rw [integer?, if_pos (length_le_of_lt isWhole (by decide) isBelow)]
  exact congrArg some isValue

end Decimal

theorem JsonValue.ofScalar_int_eq_ok {value : Int} {content : JsonValue}
    (isContent : ofScalar (.int value) = .ok content) :
    Decimal.isWritable value = true ∧ content = .int value := by
  rw [ofScalar] at isContent
  split at isContent
  next canWrite => exact ⟨canWrite, (Except.ok.inj isContent).symm⟩
  next => exact nomatch isContent

namespace Json

/-! ## Values without parts -/

theorem word?_digit {c : Char} (isDigit : Text.isDigit c = true) (text : Text) :
    word? (c :: text) = none := by
  have differ (d : Char) (noDigit : Text.isDigit d = false) : d ≠ c := by
    rintro rfl
    exact nomatch noDigit.symm.trans isDigit
  simp [word?, words, Text.after?, differ 'n' rfl, differ 't' rfl, differ 'f' rfl, differ 'N' rfl,
    differ 'I' rfl, differ '-' rfl]

theorem word?_minus_digit {c : Char} (isDigit : Text.isDigit c = true) (text : Text) :
    word? ('-' :: c :: text) = none := by
  have differ : 'I' ≠ c := by
    rintro rfl
    exact nomatch isDigit
  simp [word?, words, Text.after?, differ]

/-- The first character of a number is a digit or a minus sign before one. -/
theorem wordOrNumber_number {negative : Bool} {number rest : Text} {value : JsonValue} {c : Char}
    {digits : Text} (isNumber : number = c :: digits) (isDigit : Text.isDigit c = true)
    (isRead : unsignedNumber? negative (number ++ rest) = some (some value, rest)) :
    wordOrNumber (minus negative ++ number ++ rest) = .ok (value, rest) := by
  subst isNumber
  cases negative with
  | true =>
      have noWord := word?_minus_digit isDigit (digits ++ rest)
      have readsNumber : number? ('-' :: c :: (digits ++ rest)) = some (some value, rest) := isRead
      rw [wordOrNumber]
      simp only [minus, if_true, List.cons_append, List.nil_append, noWord, readsNumber]
  | false =>
      have noWord := word?_digit isDigit (digits ++ rest)
      have readsNumber : number? (c :: (digits ++ rest)) = some (some value, rest) := by
        rw [number?.eq_def]
        split
        next same =>
          obtain ⟨rfl, -⟩ := List.cons.inj same
          exact nomatch isDigit
        next => exact isRead
      rw [wordOrNumber]
      simp [minus, noWord, readsNumber]

/-- A value without parts, apart from a string, is a word or a number. -/
theorem wordOrNumber_denotes {text rest : Text} {part : Scalar} {content : JsonValue}
    (isValue : Denotes text (.scalar part)) (notString : ∀ inside, part ≠ .string inside)
    (isContent : JsonValue.ofScalar part = .ok content) (ends : EndsNumber rest) :
    wordOrNumber (text ++ rest) = .ok (content, rest) := by
  cases isValue with
  | null =>
      obtain rfl := Except.ok.inj isContent
      simp [wordOrNumber, word?, words, Text.after?]
  | bool part =>
      obtain rfl := Except.ok.inj isContent
      cases part <;> simp [wordOrNumber, word?, words, Text.after?]
  | int negative isWhole =>
      obtain ⟨canWrite, rfl⟩ := JsonValue.ofScalar_int_eq_ok isContent
      obtain ⟨c, digits, same⟩ := List.exists_cons_of_ne_nil isWhole.nonempty
      have isDigit := isWhole.areDigits c (same ▸ List.mem_cons_self)
      refine wordOrNumber_number same isDigit ?_
      rw [unsignedNumber?_of_isWhole isWhole ends, Decimal.integer?_of_isWhole isWhole canWrite rfl]
      rfl
  | float negative isNumber =>
      obtain rfl := Except.ok.inj isContent
      have isRead := unsignedNumber?_of_scientific isNumber ends negative
      cases isNumber with
      | mk isWhole _ _ _ =>
          obtain ⟨c, digits, same⟩ := List.exists_cons_of_ne_nil isWhole.nonempty
          have isDigit := isWhole.areDigits c (same ▸ List.mem_cons_self)
          subst same
          exact wordOrNumber_number rfl isDigit isRead
  | string areCharacters => exact absurd rfl (notString _)

/-! ## Spaces -/

/-- The character that a value begins with. -/
theorem exists_head_of_denotes {text : Text} {value : Value} (isValue : Denotes text value) :
    ∃ c rest, text = c :: rest ∧ isSpace c = false ∧ c ≠ ']' ∧ c ≠ '\x7d' := by
  have digit {c : Char} (isDigit : Text.isDigit c = true) :
      isSpace c = false ∧ c ≠ ']' ∧ c ≠ '\x7d' := by
    have differ (d : Char) (noDigit : Text.isDigit d = false) : c ≠ d := by
      rintro rfl
      exact nomatch noDigit.symm.trans isDigit
    refine ⟨?_, differ _ rfl, differ _ rfl⟩
    simp [isSpace, differ ' ' rfl, differ '\t' rfl, differ '\n' rfl, differ '\r' rfl]
  have number {negative : Bool} {whole rest : Text} (isWhole : IsWhole whole) :
      ∃ c behind, minus negative ++ (whole ++ rest) = c :: behind ∧
        isSpace c = false ∧ c ≠ ']' ∧ c ≠ '\x7d' := by
    obtain ⟨c, digits, rfl⟩ := List.exists_cons_of_ne_nil isWhole.nonempty
    cases negative with
    | true => exact ⟨'-', _, rfl, by decide⟩
    | false => exact ⟨c, digits ++ rest, rfl, digit (isWhole.areDigits c List.mem_cons_self)⟩
  cases isValue with
  | null => exact ⟨'n', _, rfl, by decide⟩
  | bool part =>
      cases part with
      | true => exact ⟨'t', _, rfl, by decide⟩
      | false => exact ⟨'f', _, rfl, by decide⟩
  | int negative isWhole =>
      rw [← List.append_nil (minus negative ++ _), List.append_assoc]
      exact number isWhole
  | float negative isNumber =>
      cases isNumber with
      | mk isWhole _ _ _ =>
          rw [List.append_assoc _ _ (_ : Text)]
          exact number isWhole
  | string _ => exact ⟨'"', _, rfl, by decide⟩
  | emptyArray _ | array _ => exact ⟨'[', _, rfl, by decide⟩
  | emptyObject _ | object _ _ => exact ⟨'\x7b', _, rfl, by decide⟩

theorem skipSpaces_of_isSpaces {spaces : Text} (areSpaces : IsSpaces spaces) (rest : Text) :
    skipSpaces (spaces ++ rest) = skipSpaces rest := by
  rw [skipSpaces, List.dropWhile_append_of_pos areSpaces]
  rfl

theorem skipSpaces_cons {c : Char} (notSpace : isSpace c = false) (rest : Text) :
    skipSpaces (c :: rest) = c :: rest := by
  simp [skipSpaces, notSpace]

/-- A value with spaces around it, from its first character on. -/
theorem exists_of_element {text : Text} {value : Value} (isElement : Element text value) :
    ∃ inside after, Denotes inside value ∧ IsSpaces after ∧ inside.length ≤ text.length ∧
      ∀ rest, skipSpaces (text ++ rest) = inside ++ (after ++ rest) := by
  cases isElement with
  | @mk before inside after _ areBefore isValue areAfter =>
      refine ⟨inside, after, isValue, areAfter, by simp; omega, fun rest => ?_⟩
      obtain ⟨c, behind, rfl, notSpace, -⟩ := exists_head_of_denotes isValue
      rw [List.append_assoc, List.append_assoc, skipSpaces_of_isSpaces areBefore]
      exact skipSpaces_cons notSpace _

/-- Spaces do not go on with a number. -/
theorem endsNumber_of_isSpaces {spaces rest : Text} (areSpaces : IsSpaces spaces)
    (ends : EndsNumber rest) : EndsNumber (spaces ++ rest) := by
  cases spaces with
  | nil => exact ends
  | cons space spaces =>
      intro c isHead
      obtain rfl := Option.some.inj isHead
      have isSpace := areSpaces space List.mem_cons_self
      have differ (d : Char) (noSpace : Json.isSpace d = false) : space ≠ d := by
        rintro rfl
        exact nomatch noSpace.symm.trans isSpace
      refine ⟨?_, differ _ rfl, differ _ rfl, differ _ rfl⟩
      simp only [Json.isSpace, Bool.or_eq_true, decide_eq_true_eq] at isSpace
      obtain ((rfl | rfl) | rfl) | rfl := isSpace
      all_goals rfl

theorem endsNumber_cons {c : Char} (rest : Text)
    (ends : Text.isDigit c = false ∧ c ≠ '.' ∧ c ≠ 'e' ∧ c ≠ 'E') : EndsNumber (c :: rest) := by
  intro d isHead
  obtain rfl := Option.some.inj isHead
  exact ends

/-! ## Values -/

/-- A key and the colon behind it are read. -/
theorem key?_of_element {key : Text} {name : String} (isKey : Element key (.string name))
    (rest : Text) :
    key? (skipSpaces (key ++ ':' :: rest)) = some (LooseText.ofString name, skipSpaces rest) := by
  obtain ⟨inside, after, isString, areAfter, -, skips⟩ := exists_of_element isKey
  rw [skips]
  cases isString with
  | @string inside text areCharacters =>
      have isRead := stringRest?_of_characters areCharacters (after ++ ':' :: rest)
      have sameText : '"' :: inside ++ ['"'] ++ (after ++ ':' :: rest) =
          '"' :: (inside ++ '"' :: (after ++ ':' :: rest)) := by simp
      have behind : skipSpaces (after ++ ':' :: rest) = ':' :: rest := by
        rw [skipSpaces_of_isSpaces areAfter, skipSpaces_cons rfl]
      rw [sameText, key?, isRead, LooseText.ofString, String.toList_ofList]
      simp [behind]

/-- A word or a number is not taken for another value. -/
theorem valueIn_of_wordOrNumber {text : Text} {found : JsonValue × Text} (steps : Nat)
    (isRead : wordOrNumber text = .ok found) : valueIn (steps + 1) text = .ok found := by
  rw [valueIn.eq_def]
  dsimp only
  split
  · exact nomatch isRead
  · exact nomatch isRead
  · exact nomatch isRead
  · exact isRead

theorem valueIn_emptyArray {spaces : Text} (areSpaces : IsSpaces spaces) (steps : Nat)
    (rest : Text) :
    valueIn (steps + 1) ('[' :: (spaces ++ ']' :: rest)) = .ok (.array [], rest) := by
  have isEnd : skipSpaces (spaces ++ ']' :: rest) = ']' :: rest := by
    rw [skipSpaces_of_isSpaces areSpaces, skipSpaces_cons rfl]
  rw [valueIn, isEnd]
  rfl

theorem valueIn_emptyObject {spaces : Text} (areSpaces : IsSpaces spaces) (steps : Nat)
    (rest : Text) :
    valueIn (steps + 1) ('\x7b' :: (spaces ++ '\x7d' :: rest)) = .ok (.object [], rest) := by
  have isEnd : skipSpaces (spaces ++ '\x7d' :: rest) = '\x7d' :: rest := by
    rw [skipSpaces_of_isSpaces areSpaces, skipSpaces_cons rfl]
  rw [valueIn, isEnd]
  rfl

/-- An array is read once its items are. -/
theorem valueIn_array {steps : Nat} {text rest : Text} {items : List JsonValue}
    (notEmpty : ∃ c behind, skipSpaces text = c :: behind ∧ c ≠ ']')
    (areRead : itemsIn steps (skipSpaces text) = .ok (items, rest)) :
    valueIn (steps + 1) ('[' :: text) = .ok (.array items, rest) := by
  obtain ⟨c, behind, isHead, notBracket⟩ := notEmpty
  rw [valueIn]
  rw [isHead] at areRead ⊢
  split
  next same => exact absurd (List.cons.inj same).1 notBracket
  next =>
    rw [areRead]
    rfl

/-- An object is read once its entries are. -/
theorem valueIn_object {steps : Nat} {text rest : Text} {entries : List (LooseText × JsonValue)}
    (distinct : (Entries.keys entries).Nodup)
    (notEmpty : ∃ c behind, skipSpaces text = c :: behind ∧ c ≠ '\x7d')
    (areRead : entriesIn steps (skipSpaces text) = .ok (entries, rest)) :
    valueIn (steps + 1) ('\x7b' :: text) = .ok (.object entries, rest) := by
  obtain ⟨c, behind, isHead, notBrace⟩ := notEmpty
  rw [valueIn]
  rw [isHead] at areRead ⊢
  split
  next same => exact absurd (List.cons.inj same).1 notBrace
  next =>
    rw [areRead]
    exact congrArg (fun entries => Except.ok (JsonValue.object entries, rest))
      (Entries.ofPairs_of_nodup distinct)

/-- The items of an array do not begin with its bracket. -/
theorem exists_head_of_items {text : Text} {items : List Value} (areItems : Items text items)
    (rest : Text) : ∃ c behind, skipSpaces (text ++ rest) = c :: behind ∧ c ≠ ']' := by
  have first {text rest : Text} {item : Value} (isItem : Element text item) :
      ∃ c behind, skipSpaces (text ++ rest) = c :: behind ∧ c ≠ ']' := by
    obtain ⟨inside, after, isValue, -, -, skips⟩ := exists_of_element isItem
    obtain ⟨c, behind, rfl, -, notBracket, -⟩ := exists_head_of_denotes isValue
    exact ⟨c, _, skips rest, notBracket⟩
  cases areItems with
  | last isItem => exact first isItem
  | more isItem _ =>
      rw [List.append_assoc]
      exact first isItem

/-- The entries of an object do not begin with its brace. -/
theorem exists_head_of_members {text : Text} {entries : List (String × Value)}
    (areMembers : Members text entries) (rest : Text) :
    ∃ c behind, skipSpaces (text ++ rest) = c :: behind ∧ c ≠ '\x7d' := by
  have first {text rest : Text} {key : Value} (isKey : Element text key) :
      ∃ c behind, skipSpaces (text ++ rest) = c :: behind ∧ c ≠ '\x7d' := by
    obtain ⟨inside, after, isValue, -, -, skips⟩ := exists_of_element isKey
    obtain ⟨c, behind, rfl, -, -, notBrace⟩ := exists_head_of_denotes isValue
    exact ⟨c, _, skips rest, notBrace⟩
  cases areMembers with
  | last isKey _ =>
      rw [List.append_assoc]
      exact first isKey
  | more isKey _ _ =>
      rw [List.append_assoc, List.append_assoc]
      exact first isKey

theorem keys_ofEntries {entries : List (String × Value)} {written : List (LooseText × JsonValue)}
    (areWritten : JsonValue.ofEntries entries = .ok written) :
    Entries.keys written = (Entries.keys entries).map LooseText.ofString := by
  induction entries generalizing written with
  | nil =>
      obtain rfl := Except.ok.inj areWritten
      rfl
  | cons entry entries ih =>
      obtain ⟨first, -, behind⟩ := bind_eq_ok_iff.mp areWritten
      obtain ⟨rest, areRest, same⟩ := bind_eq_ok_iff.mp behind
      obtain rfl := Except.ok.inj same
      exact congrArg (LooseText.ofString entry.1 :: ·) (ih areRest)

theorem ofString_injective : Function.Injective LooseText.ofString := by
  intro first second same
  exact String.toList_inj.mp (List.map_inj_right (fun _ _ => CodePoint.char.inj) |>.mp same)

/-- A value with spaces around it is read up to the next sign, if the value itself
is read. -/
theorem exists_left_of_element {text rest : Text} {value : Value} {content : JsonValue}
    {steps : Nat} {sign : Char} (isElement : Element text value)
    (reads : ∀ {inside rest : Text}, Denotes inside value → EndsNumber rest →
      inside.length ≤ text.length → valueIn steps (inside ++ rest) = .ok (content, rest))
    (ends : EndsNumber (sign :: rest)) (notSpace : isSpace sign = false) :
    ∃ left, valueIn steps (skipSpaces (text ++ sign :: rest)) = .ok (content, left) ∧
      skipSpaces left = sign :: rest := by
  obtain ⟨inside, after, isValue, areAfter, isShort, skips⟩ := exists_of_element isElement
  refine ⟨after ++ sign :: rest, ?_, ?_⟩
  · rw [skips]
    exact reads isValue (endsNumber_of_isSpaces areAfter ends) isShort
  · rw [skipSpaces_of_isSpaces areAfter, skipSpaces_cons notSpace]

mutual

/-- A value is read from its text, whatever follows that is no part of a number. -/
theorem valueIn_of_denotes :
    ∀ {plain : Value} {text rest : Text} {content : JsonValue} {steps : Nat},
      Denotes text plain → JsonValue.ofValue plain = .ok content → EndsNumber rest →
        2 * text.length ≤ steps → valueIn steps (text ++ rest) = .ok (content, rest)
  | plain, text, rest, content, 0, isValue, _, _, enough => by
      obtain ⟨c, behind, rfl, -⟩ := exists_head_of_denotes isValue
      rw [List.length_cons] at enough
      omega
  | .scalar part, text, rest, content, steps + 1, isValue, isContent, ends, enough => by
      cases part with
      | string part =>
          obtain rfl := Except.ok.inj isContent
          cases isValue with
          | @string inside text areCharacters =>
              have isRead := stringRest?_of_characters areCharacters rest
              have sameText : '"' :: inside ++ ['"'] ++ rest = '"' :: (inside ++ '"' :: rest) := by
                simp
              rw [sameText, valueIn, isRead, LooseText.ofString, String.toList_ofList]
              rfl
      | _ =>
          exact valueIn_of_wordOrNumber steps (wordOrNumber_denotes isValue nofun isContent ends)
  | .array items, text, rest, content, steps + 1, isValue, isContent, ends, enough => by
      obtain ⟨written, areWritten, same⟩ := bind_eq_ok_iff.mp isContent
      obtain rfl := Except.ok.inj same
      cases isValue with
      | @emptyArray spaces areSpaces =>
          obtain rfl := Except.ok.inj areWritten
          rw [List.append_assoc, List.cons_append, List.singleton_append]
          exact valueIn_emptyArray areSpaces steps rest
      | @array inside _ areItems =>
          rw [List.length_append, List.length_cons, List.length_singleton] at enough
          have areRead : itemsIn steps (skipSpaces (inside ++ ']' :: rest)) = .ok (written, rest) :=
            itemsIn_of_items areItems areWritten (by omega)
          rw [List.append_assoc, List.cons_append, List.singleton_append]
          exact valueIn_array (exists_head_of_items areItems _) areRead
  | .table entries, text, rest, content, steps + 1, isValue, isContent, ends, enough => by
      obtain ⟨written, areWritten, same⟩ := bind_eq_ok_iff.mp isContent
      obtain rfl := Except.ok.inj same
      cases isValue with
      | @emptyObject spaces areSpaces =>
          obtain rfl := Except.ok.inj areWritten
          rw [List.append_assoc, List.cons_append, List.singleton_append]
          exact valueIn_emptyObject areSpaces steps rest
      | @object inside _ areMembers distinct =>
          rw [List.length_append, List.length_cons, List.length_singleton] at enough
          have areRead :
              entriesIn steps (skipSpaces (inside ++ '\x7d' :: rest)) = .ok (written, rest) :=
            entriesIn_of_members areMembers areWritten (by omega)
          have distinctKeys : (Entries.keys written).Nodup := by
            rw [keys_ofEntries areWritten]
            exact List.Pairwise.map _ (fun _ _ different same => different (ofString_injective same))
              distinct
          rw [List.append_assoc, List.cons_append, List.singleton_append]
          exact valueIn_object distinctKeys (exists_head_of_members areMembers _) areRead

/-- The items of an array are read up to the bracket. -/
theorem itemsIn_of_items :
    ∀ {items : List Value} {text rest : Text} {written : List JsonValue} {steps : Nat},
      Items text items → JsonValue.ofItems items = .ok written → 2 * text.length < steps →
        itemsIn steps (skipSpaces (text ++ ']' :: rest)) = .ok (written, rest)
  | _, _, _, _, 0, _, _, enough => absurd enough (Nat.not_lt_zero _)
  | [], _, _, _, _ + 1, areItems, _, _ => nomatch areItems
  | item :: items, text, rest, written, steps + 1, areItems, areWritten, enough => by
      obtain ⟨first, isFirst, behind⟩ := bind_eq_ok_iff.mp areWritten
      obtain ⟨others, areOthers, same⟩ := bind_eq_ok_iff.mp behind
      obtain rfl := Except.ok.inj same
      cases areItems with
      | last isItem =>
          obtain rfl := Except.ok.inj areOthers
          have isRead : ∃ left, valueIn steps (skipSpaces (text ++ ']' :: rest)) =
              .ok (first, left) ∧ skipSpaces left = ']' :: rest :=
            exists_left_of_element isItem
              (fun isValue ends isShort => valueIn_of_denotes isValue isFirst ends (by omega))
              (endsNumber_cons rest (by decide)) rfl
          obtain ⟨left, isRead, isBracket⟩ := isRead
          rw [itemsIn, isRead]
          simp only [Bind.bind, Except.bind, isBracket]
      | @more text behind _ _ isItem areItems =>
          rw [List.length_append, List.length_cons] at enough
          have isRead : ∃ left, valueIn steps (skipSpaces (text ++ ',' :: (behind ++ ']' :: rest))) =
              .ok (first, left) ∧ skipSpaces left = ',' :: (behind ++ ']' :: rest) :=
            exists_left_of_element isItem
              (fun isValue ends isShort => valueIn_of_denotes isValue isFirst ends (by omega))
              (endsNumber_cons _ (by decide)) rfl
          obtain ⟨left, isRead, isComma⟩ := isRead
          have areRead : itemsIn steps (skipSpaces (behind ++ ']' :: rest)) = .ok (others, rest) :=
            itemsIn_of_items areItems areOthers (by omega)
          rw [List.append_assoc, List.cons_append, itemsIn, isRead]
          simp only [Bind.bind, Except.bind, isComma, areRead]

/-- The entries of an object are read up to the brace. -/
theorem entriesIn_of_members :
    ∀ {entries : List (String × Value)} {text rest : Text}
      {written : List (LooseText × JsonValue)} {steps : Nat},
      Members text entries → JsonValue.ofEntries entries = .ok written →
        2 * text.length < steps →
          entriesIn steps (skipSpaces (text ++ '\x7d' :: rest)) = .ok (written, rest)
  | _, _, _, _, 0, _, _, enough => absurd enough (Nat.not_lt_zero _)
  | [], _, _, _, _ + 1, areMembers, _, _ => nomatch areMembers
  | (name, inner) :: entries, text, rest, written, steps + 1, areMembers, areWritten, enough => by
      obtain ⟨first, isFirst, behind⟩ := bind_eq_ok_iff.mp areWritten
      obtain ⟨others, areOthers, same⟩ := bind_eq_ok_iff.mp behind
      obtain rfl := Except.ok.inj same
      cases areMembers with
      | @last key text _ _ isKey isValue =>
          rw [List.length_append, List.length_cons] at enough
          obtain rfl := Except.ok.inj areOthers
          have isRead : ∃ left, valueIn steps (skipSpaces (text ++ '\x7d' :: rest)) =
              .ok (first, left) ∧ skipSpaces left = '\x7d' :: rest :=
            exists_left_of_element isValue
              (fun isValue ends isShort => valueIn_of_denotes isValue isFirst ends (by omega))
              (endsNumber_cons rest (by decide)) rfl
          obtain ⟨left, isRead, isBrace⟩ := isRead
          rw [List.append_assoc, List.cons_append, entriesIn, key?_of_element isKey]
          simp only [needed, Bind.bind, Except.bind, isRead, isBrace]
      | @more key text behind _ _ _ isKey isValue areMembers =>
          simp only [List.length_append, List.length_cons] at enough
          have isRead : ∃ left,
              valueIn steps (skipSpaces (text ++ ',' :: (behind ++ '\x7d' :: rest))) =
                .ok (first, left) ∧ skipSpaces left = ',' :: (behind ++ '\x7d' :: rest) :=
            exists_left_of_element isValue
              (fun isValue ends isShort => valueIn_of_denotes isValue isFirst ends (by omega))
              (endsNumber_cons _ (by decide)) rfl
          obtain ⟨left, isRead, isComma⟩ := isRead
          have areRead :
              entriesIn steps (skipSpaces (behind ++ '\x7d' :: rest)) = .ok (others, rest) :=
            entriesIn_of_members areMembers areOthers (by omega)
          have sameText : key ++ ':' :: text ++ ',' :: behind ++ '\x7d' :: rest =
              key ++ ':' :: (text ++ ',' :: (behind ++ '\x7d' :: rest)) := by
            simp
          rw [sameText, entriesIn, key?_of_element isKey]
          simp only [needed, Bind.bind, Except.bind, isRead, isComma, areRead]

end

/-- A text of the grammar is read as the data that it denotes. -/
theorem read_of_isDocument {text : Text} {plain : Value} {content : JsonValue}
    (isDocument : IsDocument text plain) (isContent : JsonValue.ofValue plain = .ok content) :
    read text = .ok content := by
  obtain ⟨inside, after, isValue, areAfter, isShort, skips⟩ := exists_of_element isDocument
  have atEnd := skips []
  rw [List.append_nil, List.append_nil] at atEnd
  have ends : EndsNumber after := by
    have isEnd : EndsNumber (after ++ []) := endsNumber_of_isSpaces areAfter nofun
    rwa [List.append_nil] at isEnd
  have isRead : valueIn (2 * text.length + 2) (inside ++ after) = .ok (content, after) :=
    valueIn_of_denotes isValue isContent ends (by omega)
  have nothing : skipSpaces after = [] := by
    have isEnd := skipSpaces_of_isSpaces areAfter []
    rwa [List.append_nil] at isEnd
  rw [read, atEnd, isRead]
  simp [Bind.bind, Except.bind, nothing]

end Json

end ApiWorkshop
