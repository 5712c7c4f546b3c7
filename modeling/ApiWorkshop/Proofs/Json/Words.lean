import ApiWorkshop.Proofs.Json.Printed

/-!
# Numbers that are not finite

A NaN and an infinity are written as words.  No text of the grammar has the
letters that these words begin with outside of a string, so data with such a
number has a text that is no JSON.
-/

namespace ApiWorkshop

namespace Json

/-- Whether the letters that begin `NaN` and `Infinity` stand in strings only.  The
truth value tells whether the text begins inside a string. -/
def isPure : Bool → Text → Bool
  | _, [] => true
  | true, '"' :: rest => isPure false rest
  | true, '\\' :: _ :: rest => isPure true rest
  | true, _ :: rest => isPure true rest
  | false, '"' :: rest => isPure true rest
  | false, c :: rest => c ≠ 'N' && c ≠ 'I' && isPure false rest

/-- A text outside of strings that does not matter to what follows. -/
def KeepsPure (text : Text) : Prop :=
  ∀ rest, isPure false (text ++ rest) = isPure false rest

theorem KeepsPure.append {first second : Text} (keepsFirst : KeepsPure first)
    (keepsSecond : KeepsPure second) : KeepsPure (first ++ second) := by
  intro rest
  rw [List.append_assoc, keepsFirst, keepsSecond]

theorem keepsPure_nil : KeepsPure [] :=
  fun _ => rfl

theorem KeepsPure.cons {c : Char} {text : Text} (keeps : KeepsPure text)
    (isOther : c ≠ '"' ∧ c ≠ 'N' ∧ c ≠ 'I') : KeepsPure (c :: text) := by
  intro rest
  obtain ⟨notQuote, notN, notI⟩ := isOther
  rw [List.cons_append, isPure, keeps]
  · simp [notN, notI]
  · exact notQuote

theorem keepsPure_of_forall {text : Text} (areOther : ∀ c ∈ text, c ≠ '"' ∧ c ≠ 'N' ∧ c ≠ 'I') :
    KeepsPure text := by
  induction text with
  | nil => exact keepsPure_nil
  | cons c text ih =>
      obtain ⟨isOther, areRest⟩ := List.forall_mem_cons.mp areOther
      exact (ih areRest).cons isOther

/-- A text without quotation marks and without letters that begin a word. -/
theorem keepsPure_of_all {text : Text}
    (areOther : (text.all fun c => c ≠ '"' && c ≠ 'N' && c ≠ 'I') = true) : KeepsPure text :=
  keepsPure_of_forall fun c isMember => by
    simpa [and_assoc] using List.all_eq_true.mp areOther c isMember

/-! ## Texts of the grammar -/

theorem isPure_hexDigit {c : Char} (isHex : (Text.hexDigit? c).isSome = true) (rest : Text) :
    isPure true (c :: rest) = isPure true rest := by
  rw [isPure]
  · rintro rfl
    exact nomatch isHex
  · rintro _ _ rfl
    exact nomatch isHex

theorem isPure_unit {a b c d : Char} {unit : Nat} (isUnit : unit? a b c d = some unit) (rest : Text) :
    isPure true (a :: b :: c :: d :: rest) = isPure true rest := by
  obtain ⟨digits, areDigits, -⟩ := Option.bind_eq_some_iff.mp isUnit
  simp only [List.mapM_cons, List.mapM_nil, Option.bind_eq_bind, Option.bind_eq_some_iff] at areDigits
  obtain ⟨_, isFirst, _, ⟨_, isSecond, _, ⟨_, isThird, _, ⟨_, isFourth, -⟩, -⟩, -⟩, -⟩ := areDigits
  rw [isPure_hexDigit (Option.isSome_of_eq_some isFirst),
    isPure_hexDigit (Option.isSome_of_eq_some isSecond),
    isPure_hexDigit (Option.isSome_of_eq_some isThird),
    isPure_hexDigit (Option.isSome_of_eq_some isFourth)]

theorem isPure_characters {inside text : Text} (areCharacters : Characters inside text)
    (rest : Text) : isPure true (inside ++ '"' :: rest) = isPure false rest := by
  induction areCharacters with
  | nil => rfl
  | plain isPlain _ ih =>
      obtain ⟨-, notQuote, notBackslash⟩ := isPlain
      rw [List.cons_append, isPure, ih]
      · exact notQuote
      · exact fun _ _ isBackslash => absurd isBackslash notBackslash
  | letter _ _ ih => exact ih
  | unit isUnit _ ih => exact (isPure_unit isUnit _).trans ih
  | pair isHigh isLow _ ih =>
      exact (isPure_unit isHigh.1 _).trans ((isPure_unit isLow.1 _).trans ih)

theorem keepsPure_digits {digits : Text} (areDigits : ∀ c ∈ digits, Text.isDigit c = true) :
    KeepsPure digits := by
  refine keepsPure_of_forall fun c isMember => ?_
  have differ (d : Char) (noDigit : Text.isDigit d = false) : c ≠ d := by
    rintro rfl
    exact nomatch noDigit.symm.trans (areDigits c isMember)
  exact ⟨differ _ rfl, differ _ rfl, differ _ rfl⟩

theorem keepsPure_isSpaces {spaces : Text} (areSpaces : IsSpaces spaces) : KeepsPure spaces := by
  refine keepsPure_of_forall fun c isMember => ?_
  have differ (d : Char) (noSpace : isSpace d = false) : c ≠ d := by
    rintro rfl
    exact nomatch noSpace.symm.trans (areSpaces c isMember)
  exact ⟨differ _ rfl, differ _ rfl, differ _ rfl⟩

theorem keepsPure_minus (negative : Bool) : KeepsPure (minus negative) := by
  cases negative with
  | true => exact keepsPure_nil.cons (by decide)
  | false => exact keepsPure_nil

theorem keepsPure_scientific {number : Text} {coefficient : Nat} {power : Int}
    (isNumber : Scientific number coefficient power) : KeepsPure number := by
  cases isNumber with
  | mk isWhole isFraction isExponent _ =>
      have whole := keepsPure_digits isWhole.areDigits
      have letter {c : Char} (isLetter : c = 'e' ∨ c = 'E') : c ≠ '"' ∧ c ≠ 'N' ∧ c ≠ 'I' := by
        rcases isLetter with rfl | rfl
        · decide
        · decide
      refine (whole.append ?_).append ?_
      · cases isFraction with
        | none => exact keepsPure_nil
        | some areDigits => exact (keepsPure_digits areDigits.areDigits).cons (by decide)
      · cases isExponent with
        | none => exact keepsPure_nil
        | unsigned isLetter areDigits =>
            exact (keepsPure_digits areDigits.areDigits).cons (letter isLetter)
        | plus isLetter areDigits | minus isLetter areDigits =>
            exact ((keepsPure_digits areDigits.areDigits).cons (by decide)).cons (letter isLetter)

theorem keepsPure_element {text : Text} {value : Value} (isElement : Element text value)
    (keeps : ∀ {inside : Text}, Denotes inside value → KeepsPure inside) : KeepsPure text := by
  cases isElement with
  | mk areBefore isValue areAfter =>
      exact ((keepsPure_isSpaces areBefore).append (keeps isValue)).append
        (keepsPure_isSpaces areAfter)

mutual

/-- The text of a value has the letters of the words in strings only. -/
theorem keepsPure_denotes : ∀ {plain : Value} {text : Text}, Denotes text plain → KeepsPure text
  | .scalar part, text, isValue => by
      cases isValue with
      | null => exact keepsPure_of_all rfl
      | bool part =>
          cases part with
          | true => exact keepsPure_of_all rfl
          | false => exact keepsPure_of_all rfl
      | int negative isWhole =>
          exact (keepsPure_minus negative).append (keepsPure_digits isWhole.areDigits)
      | float negative isNumber =>
          exact (keepsPure_minus negative).append (keepsPure_scientific isNumber)
      | string areCharacters =>
          intro rest
          rw [List.append_assoc]
          exact isPure_characters areCharacters rest
  | .array items, text, isValue => by
      have bracket : KeepsPure [']'] := keepsPure_nil.cons (by decide)
      cases isValue with
      | emptyArray areSpaces =>
          exact ((keepsPure_isSpaces areSpaces).cons (by decide)).append bracket
      | array areItems => exact ((keepsPure_items areItems).cons (by decide)).append bracket
  | .table entries, text, isValue => by
      have brace : KeepsPure ['\x7d'] := keepsPure_nil.cons (by decide)
      cases isValue with
      | emptyObject areSpaces =>
          exact ((keepsPure_isSpaces areSpaces).cons (by decide)).append brace
      | object areMembers _ => exact ((keepsPure_members areMembers).cons (by decide)).append brace

theorem keepsPure_items :
    ∀ {items : List Value} {text : Text}, Items text items → KeepsPure text
  | [], text, areItems => nomatch areItems
  | item :: items, text, areItems => by
      cases areItems with
      | last isItem => exact keepsPure_element isItem keepsPure_denotes
      | more isItem areItems =>
          have first := keepsPure_element isItem keepsPure_denotes
          exact first.append ((keepsPure_items areItems).cons (by decide))

theorem keepsPure_members :
    ∀ {entries : List (String × Value)} {text : Text}, Members text entries → KeepsPure text
  | [], text, areMembers => nomatch areMembers
  | (name, value) :: entries, text, areMembers => by
      have isString {key : Text} (isKey : Element key (.string name)) : KeepsPure key :=
        keepsPure_element isKey fun
          | .string areCharacters => fun rest => by
              rw [List.append_assoc]
              exact isPure_characters areCharacters rest
      cases areMembers with
      | last isKey isValue =>
          have first := keepsPure_element isValue keepsPure_denotes
          exact (isString isKey).append (first.cons (by decide))
      | more isKey isValue areMembers =>
          have first := keepsPure_element isValue keepsPure_denotes
          exact ((isString isKey).append (first.cons (by decide))).append
            ((keepsPure_members areMembers).cons (by decide))

end

/-! ## Texts that are written -/

theorem keepsPure_newLine (depth : Nat) : KeepsPure (newLine depth) :=
  keepsPure_isSpaces (isSpaces_newLine depth)

theorem keepsPure_key (depth : Nat) (key : String) :
    KeepsPure (newLine depth ++ string .unicode (LooseText.ofString key) ++ ": ".toList) :=
  ((keepsPure_newLine depth).append (keepsPure_denotes (denotes_string key))).append
    (keepsPure_of_all rfl)

theorem isPure_scalar_iff {part : Scalar} (isRead : part.IsRead) {content : JsonValue}
    (isContent : JsonValue.ofScalar part = .ok content) (depth : Nat) (rest : Text) :
    isPure false (value .unicode depth content ++ rest) = true ↔
      part.IsFinite ∧ isPure false rest = true := by
  have finite (isFinite : part.IsFinite) (isStandard : part.IsStandard) :
      isPure false (value .unicode depth content ++ rest) = true ↔
        part.IsFinite ∧ isPure false rest = true := by
    have isValue := denotes_scalar isStandard isContent depth
    rw [keepsPure_denotes isValue rest, and_iff_right isFinite]
  cases part with
  | float part =>
      cases part with
      | finite negative significand scale => exact finite rfl ⟨rfl, isRead⟩
      | nan =>
          obtain rfl := Except.ok.inj isContent
          exact ⟨nofun, fun both => nomatch both.1⟩
      | infinity negative =>
          obtain rfl := Except.ok.inj isContent
          cases negative with
          | true => exact ⟨nofun, fun both => nomatch both.1⟩
          | false => exact ⟨nofun, fun both => nomatch both.1⟩
  | _ => exact finite trivial trivial

mutual

/-- The text of data has the letters of the words in strings only, exactly if each
number in the data is finite. -/
theorem isPure_value_iff :
    ∀ {plain : Value} {content : JsonValue}, plain.All Scalar.IsRead →
      JsonValue.ofValue plain = .ok content → ∀ depth rest,
        isPure false (value .unicode depth content ++ rest) = true ↔
          plain.All Scalar.IsFinite ∧ isPure false rest = true
  | .scalar part, content, isRead, isContent, depth, rest => by
      rw [Value.all_scalar_iff, isPure_scalar_iff (Value.all_scalar_iff.mp isRead) isContent]
  | .array [], content, _, isContent, depth, rest => by
      obtain rfl := Except.ok.inj isContent
      have brackets : KeepsPure "[]".toList := keepsPure_of_all rfl
      rw [value, brackets rest]
      simp
  | .array (item :: items), content, areRead, isContent, depth, rest => by
      obtain ⟨written, areWritten, same⟩ := bind_eq_ok_iff.mp isContent
      obtain rfl := Except.ok.inj same
      have areItems := isPure_itemLines_iff (Value.all_array_iff.mp areRead) areWritten (depth + 1)
      have front : KeepsPure "[".toList := keepsPure_of_all rfl
      have back : KeepsPure (newLine depth ++ "]".toList) :=
        (keepsPure_newLine depth).append (keepsPure_of_all rfl)
      obtain ⟨first, others, rfl, -, -⟩ := exists_of_ofItems_cons areWritten
      rw [value, List.append_assoc, List.append_assoc, List.append_assoc, front, areItems,
        ← List.append_assoc, back, Value.all_array_iff]
      exact nofun
  | .table [], content, _, isContent, depth, rest => by
      obtain rfl := Except.ok.inj isContent
      have braces : KeepsPure "\x7b\x7d".toList := keepsPure_of_all rfl
      rw [value, braces rest]
      simp [Value.all_table_iff]
  | .table (entry :: entries), content, areRead, isContent, depth, rest => by
      obtain ⟨written, areWritten, same⟩ := bind_eq_ok_iff.mp isContent
      obtain rfl := Except.ok.inj same
      have areEntries := isPure_entryLines_iff (Value.all_table_iff.mp areRead) areWritten (depth + 1)
      have front : KeepsPure "\x7b".toList := keepsPure_of_all rfl
      have back : KeepsPure (newLine depth ++ "\x7d".toList) :=
        (keepsPure_newLine depth).append (keepsPure_of_all rfl)
      obtain ⟨first, others, rfl, -, -⟩ := exists_of_ofEntries_cons areWritten
      rw [value, List.append_assoc, List.append_assoc, List.append_assoc, front, areEntries,
        ← List.append_assoc, back, Value.all_table_iff]
      exact nofun

theorem isPure_itemLines_iff :
    ∀ {items : List Value} {written : List JsonValue}, (∀ item ∈ items, item.All Scalar.IsRead) →
      JsonValue.ofItems items = .ok written → ∀ depth rest,
        isPure false (itemLines .unicode depth written ++ rest) = true ↔
          (∀ item ∈ items, item.All Scalar.IsFinite) ∧ isPure false rest = true
  | [], written, _, areWritten, depth, rest => by
      obtain rfl := Except.ok.inj areWritten
      simp [itemLines]
  | [item], written, areRead, areWritten, depth, rest => by
      obtain ⟨first, others, rfl, isFirst, areOthers⟩ := exists_of_ofItems_cons areWritten
      obtain rfl := Except.ok.inj areOthers
      have isItem := isPure_value_iff (areRead item List.mem_cons_self) isFirst depth
      rw [itemLines, List.append_assoc, keepsPure_newLine, isItem, List.forall_mem_singleton]
  | item :: next :: items, written, areRead, areWritten, depth, rest => by
      obtain ⟨isRead, restRead⟩ := List.forall_mem_cons.mp areRead
      obtain ⟨first, others, rfl, isFirst, areOthers⟩ := exists_of_ofItems_cons areWritten
      have isItem := isPure_value_iff isRead isFirst depth
      have areItems := isPure_itemLines_iff restRead areOthers depth
      have comma : KeepsPure ",".toList := keepsPure_of_all rfl
      obtain ⟨second, more, rfl, -, -⟩ := exists_of_ofItems_cons areOthers
      rw [itemLines, List.append_assoc, List.append_assoc, List.append_assoc, keepsPure_newLine,
        isItem, comma, areItems, ← and_assoc]
      exact and_congr_left' List.forall_mem_cons.symm

theorem isPure_entryLines_iff :
    ∀ {entries : List (String × Value)} {written : List (LooseText × JsonValue)},
      (∀ entry ∈ entries, entry.2.All Scalar.IsRead) → JsonValue.ofEntries entries = .ok written →
        ∀ depth rest, isPure false (entryLines .unicode depth written ++ rest) = true ↔
          (∀ entry ∈ entries, entry.2.All Scalar.IsFinite) ∧ isPure false rest = true
  | [], written, _, areWritten, depth, rest => by
      obtain rfl := Except.ok.inj areWritten
      simp [entryLines]
  | [(key, inner)], written, areRead, areWritten, depth, rest => by
      obtain ⟨first, others, rfl, isFirst, areOthers⟩ := exists_of_ofEntries_cons areWritten
      obtain rfl := Except.ok.inj areOthers
      have isInner := isPure_value_iff (areRead _ List.mem_cons_self) isFirst depth
      rw [entryLines, List.append_assoc, keepsPure_key, isInner, List.forall_mem_singleton]
  | (key, inner) :: next :: entries, written, areRead, areWritten, depth, rest => by
      obtain ⟨isRead, restRead⟩ := List.forall_mem_cons.mp areRead
      obtain ⟨first, others, rfl, isFirst, areOthers⟩ := exists_of_ofEntries_cons areWritten
      have isInner := isPure_value_iff isRead isFirst depth
      have areEntries := isPure_entryLines_iff restRead areOthers depth
      have comma : KeepsPure ",".toList := keepsPure_of_all rfl
      obtain ⟨second, more, rfl, -, -⟩ := exists_of_ofEntries_cons areOthers
      have areAll : (∀ entry ∈ (key, inner) :: next :: entries, entry.2.All Scalar.IsFinite) ↔
          inner.All Scalar.IsFinite ∧ ∀ entry ∈ next :: entries, entry.2.All Scalar.IsFinite :=
        List.forall_mem_cons
      rw [entryLines, List.append_assoc, List.append_assoc, List.append_assoc, keepsPure_key, isInner,
        comma, areEntries, areAll, and_assoc]

end

theorem isPure_documentOf_iff {plain : Value} (areRead : plain.All Scalar.IsRead) {text : Text}
    (isText : documentOf plain = .ok text) : isPure false text = true ↔ plain.All Scalar.IsFinite := by
  obtain ⟨content, isContent, same⟩ := bind_eq_ok_iff.mp isText
  obtain rfl := Except.ok.inj same
  rw [document, isPure_value_iff areRead isContent, and_iff_left]
  rfl

/-- The text of a document is JSON exactly if each number in the data is finite. -/
theorem exists_isDocument_iff {plain : Value} (regular : plain.Regular Scalar.IsRead) {text : Text}
    (isText : documentOf plain = .ok text) :
    (∃ found, IsDocument text found) ↔ plain.All Scalar.IsFinite := by
  constructor
  · rintro ⟨found, isDocument⟩
    have keeps := keepsPure_element isDocument keepsPure_denotes []
    rw [List.append_nil] at keeps
    exact (isPure_documentOf_iff regular.all isText).mp keeps
  · intro isFinite
    exact ⟨plain, isDocument_documentOf (regular.isStandard isFinite) isText⟩

end Json

end ApiWorkshop
