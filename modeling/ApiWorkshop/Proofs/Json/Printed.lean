import ApiWorkshop.Proofs.Api.Reading
import ApiWorkshop.Proofs.Json.Escapes
import ApiWorkshop.Proofs.Json.Numbers
import ApiWorkshop.Proofs.Value.Regular

/-!
# Written data follows the grammar

Plain data has a text exactly if there is no date in it and no integer that is
too long.  The text denotes the data, if no table in it has a key twice and
every floating-point number in it is finite.
-/

namespace ApiWorkshop

/-- A scalar that JSON has a text for: no NaN, no infinity. -/
def Scalar.IsStandard : Scalar → Prop
  | .float value => value.isFinite = true ∧ value.IsRounded
  | _ => True

/-- A scalar that is no NaN and no infinity. -/
def Scalar.IsFinite : Scalar → Prop
  | .float value => value.isFinite = true
  | _ => True

/-- A scalar that can be written: no date and no integer that is too long. -/
def Scalar.HasText (part : Scalar) : Prop :=
  part.isDated = false ∧ part.isWritable = true

theorem Value.Regular.isStandard {plain : Value} (regular : plain.Regular Scalar.IsRead)
    (isFinite : plain.All Scalar.IsFinite) : plain.Regular Scalar.IsStandard := by
  refine (regular.and isFinite).imp fun part ⟨isRead, isFinite⟩ => ?_
  cases part with
  | float value => exact ⟨isFinite, isRead⟩
  | _ => trivial

/-! ## What can be written -/

namespace JsonValue

theorem exists_ofScalar_iff {part : Scalar} :
    (∃ content, ofScalar part = .ok content) ↔ part.HasText := by
  cases part with
  | int part =>
      rw [ofScalar, Scalar.HasText, Scalar.isWritable]
      cases Decimal.isWritable part <;> simp [Scalar.isDated]
  | _ => simp [ofScalar, Scalar.HasText, Scalar.isDated, Scalar.isWritable]

mutual

/-- Plain data can be written exactly if each scalar in it can. -/
theorem exists_ofValue_iff :
    ∀ {plain : Value}, (∃ content, ofValue plain = .ok content) ↔ plain.All Scalar.HasText
  | .scalar part => by rw [ofValue, exists_ofScalar_iff, Value.all_scalar_iff]
  | .array items => by
      rw [Value.all_array_iff, ← exists_ofItems_iff]
      constructor
      · rintro ⟨content, isContent⟩
        obtain ⟨written, areWritten, -⟩ := bind_eq_ok_iff.mp isContent
        exact ⟨written, areWritten⟩
      · rintro ⟨written, areWritten⟩
        exact ⟨.array written, bind_eq_ok_iff.mpr ⟨written, areWritten, rfl⟩⟩
  | .table entries => by
      rw [Value.all_table_iff, ← exists_ofEntries_iff]
      constructor
      · rintro ⟨content, isContent⟩
        obtain ⟨written, areWritten, -⟩ := bind_eq_ok_iff.mp isContent
        exact ⟨written, areWritten⟩
      · rintro ⟨written, areWritten⟩
        exact ⟨.object written, bind_eq_ok_iff.mpr ⟨written, areWritten, rfl⟩⟩

theorem exists_ofItems_iff :
    ∀ {items : List Value},
      (∃ written, ofItems items = .ok written) ↔ ∀ item ∈ items, item.All Scalar.HasText
  | [] => by simp [ofItems]
  | item :: items => by
      rw [List.forall_mem_cons, ← exists_ofValue_iff, ← exists_ofItems_iff]
      constructor
      · rintro ⟨written, areWritten⟩
        obtain ⟨first, isFirst, behind⟩ := bind_eq_ok_iff.mp areWritten
        obtain ⟨rest, areRest, -⟩ := bind_eq_ok_iff.mp behind
        exact ⟨⟨first, isFirst⟩, rest, areRest⟩
      · rintro ⟨⟨first, isFirst⟩, rest, areRest⟩
        exact ⟨first :: rest, bind_eq_ok_iff.mpr ⟨first, isFirst, bind_eq_ok_iff.mpr
          ⟨rest, areRest, rfl⟩⟩⟩

theorem exists_ofEntries_iff :
    ∀ {entries : List (String × Value)},
      (∃ written, ofEntries entries = .ok written) ↔
        ∀ entry ∈ entries, entry.2.All Scalar.HasText
  | [] => by simp [ofEntries]
  | (key, value) :: entries => by
      rw [List.forall_mem_cons, ← exists_ofValue_iff, ← exists_ofEntries_iff]
      constructor
      · rintro ⟨written, areWritten⟩
        obtain ⟨first, isFirst, behind⟩ := bind_eq_ok_iff.mp areWritten
        obtain ⟨rest, areRest, -⟩ := bind_eq_ok_iff.mp behind
        exact ⟨⟨first, isFirst⟩, rest, areRest⟩
      · rintro ⟨⟨first, isFirst⟩, rest, areRest⟩
        exact ⟨(LooseText.ofString key, first) :: rest, bind_eq_ok_iff.mpr ⟨first, isFirst,
          bind_eq_ok_iff.mpr ⟨rest, areRest, rfl⟩⟩⟩

end

end JsonValue

namespace Json

theorem exists_documentOf_iff {plain : Value} :
    (∃ text, documentOf plain = .ok text) ↔ plain.All Scalar.HasText := by
  rw [← JsonValue.exists_ofValue_iff]
  constructor
  · rintro ⟨text, isText⟩
    obtain ⟨content, isContent, -⟩ := bind_eq_ok_iff.mp isText
    exact ⟨content, isContent⟩
  · rintro ⟨content, isContent⟩
    exact ⟨document .unicode content, bind_eq_ok_iff.mpr ⟨content, isContent, rfl⟩⟩

/-! ## Strings -/

theorem characters_character (c : Char) {inside text : Text} (rest : Characters inside text) :
    Characters (character .unicode c ++ inside) (c :: text) := by
  unfold character
  split
  case h_8 notQuote notBackslash _ _ _ _ _ =>
    split
    next isControl =>
      obtain ⟨a, b, d, e, same, isUnit⟩ := exists_unit (by omega : c.toNat < 0x10000)
      rw [unitEscape, same]
      exact .unit isUnit rest
    next notControl =>
      rw [if_neg (by simp)]
      exact .plain ⟨by omega, notQuote, notBackslash⟩ rest
  all_goals exact .letter rfl rest

theorem characters_flatMap (text : Text) :
    Characters ((LooseText.ofText text).flatMap (codePoint .unicode)) text := by
  induction text with
  | nil => exact .nil
  | cons c text ih => exact characters_character c ih

theorem denotes_string (text : String) :
    Denotes (string .unicode (LooseText.ofString text)) (.string text) := by
  have isString := Denotes.string (characters_flatMap text.toList)
  rwa [String.ofList_toList] at isString

/-! ## Layout -/

theorem isSpaces_nil : IsSpaces [] :=
  nofun

theorem isSpaces_newLine (depth : Nat) : IsSpaces (newLine depth) := by
  intro c member
  rcases List.mem_cons.mp member with rfl | inSpaces
  · rfl
  · rw [List.eq_of_mem_replicate inSpaces]
    rfl

theorem isSpaces_space : IsSpaces " ".toList := by
  intro c member
  rw [List.mem_singleton.mp member]
  rfl

/-! ## Values -/

theorem denotes_scalar {part : Scalar} (isStandard : part.IsStandard) {content : JsonValue}
    (isContent : JsonValue.ofScalar part = .ok content) (depth : Nat) :
    Denotes (value .unicode depth content) (.scalar part) := by
  cases part with
  | null =>
      obtain rfl := Except.ok.inj isContent
      exact .null
  | bool part =>
      obtain rfl := Except.ok.inj isContent
      exact .bool part
  | int part =>
      rw [JsonValue.ofScalar] at isContent
      split at isContent
      · obtain rfl := Except.ok.inj isContent
        exact denotes_intText part
      · exact nomatch isContent
  | float part =>
      obtain rfl := Except.ok.inj isContent
      exact denotes_textWith isStandard.1 isStandard.2 _ _
  | string part =>
      obtain rfl := Except.ok.inj isContent
      exact denotes_string part
  | dateTime _ => contradiction
  | date _ => contradiction
  | time _ => contradiction

/-- The first item of an array is written before the rest. -/
theorem exists_of_ofItems_cons {item : Value} {items : List Value} {written : List JsonValue}
    (areWritten : JsonValue.ofItems (item :: items) = .ok written) :
    ∃ first rest, written = first :: rest ∧ JsonValue.ofValue item = .ok first ∧
      JsonValue.ofItems items = .ok rest := by
  obtain ⟨first, isFirst, behind⟩ := bind_eq_ok_iff.mp areWritten
  obtain ⟨rest, areRest, same⟩ := bind_eq_ok_iff.mp behind
  exact ⟨first, rest, (Except.ok.inj same).symm, isFirst, areRest⟩

/-- The first entry of an object is written before the rest. -/
theorem exists_of_ofEntries_cons {entry : String × Value} {entries : List (String × Value)}
    {written : List (LooseText × JsonValue)}
    (areWritten : JsonValue.ofEntries (entry :: entries) = .ok written) :
    ∃ first rest, written = (LooseText.ofString entry.1, first) :: rest ∧
      JsonValue.ofValue entry.2 = .ok first ∧ JsonValue.ofEntries entries = .ok rest := by
  obtain ⟨first, isFirst, behind⟩ := bind_eq_ok_iff.mp areWritten
  obtain ⟨rest, areRest, same⟩ := bind_eq_ok_iff.mp behind
  exact ⟨first, rest, (Except.ok.inj same).symm, isFirst, areRest⟩

mutual

theorem denotes_value :
    ∀ {plain : Value} {content : JsonValue}, plain.Regular Scalar.IsStandard →
      JsonValue.ofValue plain = .ok content → ∀ depth,
        Denotes (value .unicode depth content) plain
  | .scalar part, content, .scalar isStandard, isContent, depth =>
      denotes_scalar isStandard isContent depth
  | .array [], content, regular, isContent, depth => by
      obtain rfl := Except.ok.inj isContent
      exact .emptyArray isSpaces_nil
  | .array (item :: items), content, regular, isContent, depth => by
      obtain ⟨written, areWritten, same⟩ := bind_eq_ok_iff.mp isContent
      obtain rfl := Except.ok.inj same
      have areItems :=
        items_itemLines regular.items areWritten (List.cons_ne_nil _ _) (depth + 1) depth
      obtain ⟨first, rest, rfl, -, -⟩ := exists_of_ofItems_cons areWritten
      have isArray := Denotes.array areItems
      rw [value, List.append_assoc "[".toList]
      · exact isArray
      · exact nofun
  | .table [], content, regular, isContent, depth => by
      obtain rfl := Except.ok.inj isContent
      exact .emptyObject isSpaces_nil
  | .table (entry :: entries), content, regular, isContent, depth => by
      obtain ⟨written, areWritten, same⟩ := bind_eq_ok_iff.mp isContent
      obtain rfl := Except.ok.inj same
      have areMembers := members_entryLines regular.entries areWritten (List.cons_ne_nil _ _)
        (depth + 1) depth
      obtain ⟨first, rest, rfl, -, -⟩ := exists_of_ofEntries_cons areWritten
      have isObject := Denotes.object areMembers regular.distinct
      rw [value, List.append_assoc "\x7b".toList]
      · exact isObject
      · exact nofun

/-- The items of an array, with the line break before the bracket. -/
theorem items_itemLines :
    ∀ {items : List Value} {written : List JsonValue},
      (∀ item ∈ items, item.Regular Scalar.IsStandard) → JsonValue.ofItems items = .ok written →
        items ≠ [] → ∀ depth below, Items (itemLines .unicode depth written ++ newLine below) items
  | [], _, _, _, nonempty, _, _ => absurd rfl nonempty
  | [item], written, areRegular, areWritten, _, depth, below => by
      obtain ⟨first, rest, rfl, isFirst, areRest⟩ := exists_of_ofItems_cons areWritten
      obtain rfl := Except.ok.inj areRest
      have isItem := denotes_value (areRegular item List.mem_cons_self) isFirst depth
      exact .last (.mk (isSpaces_newLine depth) isItem (isSpaces_newLine below))
  | item :: next :: items, written, areRegular, areWritten, _, depth, below => by
      obtain ⟨isRegular, restRegular⟩ := List.forall_mem_cons.mp areRegular
      obtain ⟨first, rest, rfl, isFirst, areRest⟩ := exists_of_ofItems_cons areWritten
      have isItem := denotes_value isRegular isFirst depth
      have areItems := items_itemLines restRegular areRest (List.cons_ne_nil _ _) depth below
      obtain ⟨second, others, rfl, -, -⟩ := exists_of_ofItems_cons areRest
      have areMore := Items.more (.mk (isSpaces_newLine depth) isItem isSpaces_nil) areItems
      rw [itemLines, List.append_assoc, List.append_assoc _ ",".toList]
      rw [List.append_nil] at areMore
      exact areMore

/-- The entries of an object, with the line break before the brace. -/
theorem members_entryLines :
    ∀ {entries : List (String × Value)} {written : List (LooseText × JsonValue)},
      (∀ entry ∈ entries, entry.2.Regular Scalar.IsStandard) →
        JsonValue.ofEntries entries = .ok written → entries ≠ [] → ∀ depth below,
          Members (entryLines .unicode depth written ++ newLine below) entries
  | [], _, _, _, nonempty, _, _ => absurd rfl nonempty
  | [(key, inner)], written, areRegular, areWritten, _, depth, below => by
      obtain ⟨first, rest, rfl, isFirst, areRest⟩ := exists_of_ofEntries_cons areWritten
      obtain rfl := Except.ok.inj areRest
      have isValue := denotes_value (areRegular _ List.mem_cons_self) isFirst depth
      have isLast := Members.last (.mk (isSpaces_newLine depth) (denotes_string key) isSpaces_nil)
        (.mk isSpaces_space isValue (isSpaces_newLine below))
      rw [List.append_nil, List.append_assoc " ".toList] at isLast
      rw [entryLines, List.append_assoc, List.append_assoc _ ": ".toList]
      exact isLast
  | (key, inner) :: next :: entries, written, areRegular, areWritten, _, depth, below => by
      obtain ⟨isRegular, restRegular⟩ := List.forall_mem_cons.mp areRegular
      obtain ⟨first, rest, rfl, isFirst, areRest⟩ := exists_of_ofEntries_cons areWritten
      have isValue := denotes_value isRegular isFirst depth
      have areMembers := members_entryLines restRegular areRest (List.cons_ne_nil _ _) depth below
      obtain ⟨second, others, rfl, -, -⟩ := exists_of_ofEntries_cons areRest
      have areMore := Members.more (.mk (isSpaces_newLine depth) (denotes_string key) isSpaces_nil)
        (.mk isSpaces_space isValue isSpaces_nil) areMembers
      rw [List.append_nil, List.append_nil, List.append_assoc _ (':' :: _)] at areMore
      rw [entryLines, List.append_assoc, List.append_assoc _ ",".toList, List.append_assoc,
        List.append_assoc _ ": ".toList]
      exact areMore

end

/-- The text of a document denotes the data that it was made of. -/
theorem isDocument_documentOf {plain : Value} (regular : plain.Regular Scalar.IsStandard)
    {text : Text} (isText : documentOf plain = .ok text) : IsDocument text plain := by
  obtain ⟨content, isContent, same⟩ := bind_eq_ok_iff.mp isText
  obtain rfl := Except.ok.inj same
  have areSpaces : IsSpaces "\n".toList := by
    intro c member
    rw [List.mem_singleton.mp member]
    rfl
  exact .mk isSpaces_nil (denotes_value regular isContent 0) areSpaces

end Json

end ApiWorkshop
