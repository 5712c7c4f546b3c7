import ApiWorkshop.Proofs.Json.Printed
import ApiWorkshop.Proofs.Json.Reading
import ApiWorkshop.Proofs.Json.Regular

/-!
# Written data is read back

Regular data whose numbers are finite is read back from its text as it was written, with
either set of characters escaped.  Texts with single halves of surrogate pairs are part
of such data, although no text of the grammar denotes them.
-/

namespace ApiWorkshop

/-- A number that has a text which is read as the number. -/
def Binary64.IsStandard (part : Binary64) : Prop :=
  part.isFinite = true ∧ part.IsRounded

namespace Json

/-- Data that is read back from its text. -/
abbrev IsReadBack (content : JsonValue) : Prop :=
  content.Regular Binary64.IsStandard LooseText.IsApart

variable {charset : Charset}

/-! ## The start of a value -/

/-- The character that the text of a value begins with. -/
theorem exists_head_of_value {content : JsonValue} (isReadBack : IsReadBack content)
    (charset : Charset) (depth : Nat) :
    ∃ c behind, value charset depth content = c :: behind ∧ isSpace c = false ∧ c ≠ ']' := by
  have ofDenotes {text : Text} {plain : Value} (isValue : Denotes text plain) :
      ∃ c behind, text = c :: behind ∧ isSpace c = false ∧ c ≠ ']' := by
    obtain ⟨c, behind, same, notSpace, notBracket, -⟩ := exists_head_of_denotes isValue
    exact ⟨c, behind, same, notSpace, notBracket⟩
  cases isReadBack with
  | null => exact ofDenotes .null
  | bool part => exact ofDenotes (.bool part)
  | int _ => exact ofDenotes (denotes_intText _)
  | float isStandard => exact ofDenotes (denotes_textWith isStandard.1 isStandard.2 _ _)
  | string _ => exact ⟨'"', _, rfl, by decide⟩
  | @array items _ => cases items <;> exact ⟨'[', _, rfl, by decide⟩
  | @object entries _ _ _ => cases entries <;> exact ⟨'\x7b', _, rfl, by decide⟩

theorem skipSpaces_newLine (depth : Nat) (text : Text) :
    skipSpaces (newLine depth ++ text) = skipSpaces text :=
  skipSpaces_of_isSpaces (isSpaces_newLine depth) text

theorem endsNumber_newLine (depth : Nat) (text : Text) : EndsNumber (newLine depth ++ text) :=
  endsNumber_cons _ (by decide)

theorem skipSpaces_value {content : JsonValue} (isReadBack : IsReadBack content)
    (charset : Charset) (depth : Nat) (rest : Text) :
    skipSpaces (value charset depth content ++ rest) = value charset depth content ++ rest := by
  obtain ⟨c, behind, same, notSpace, -⟩ := exists_head_of_value isReadBack charset depth
  rw [same, List.cons_append, skipSpaces_cons notSpace]

/-- The key of an entry and what is between it and the value are read. -/
theorem key?_string {key : LooseText} (isApart : key.IsApart) (charset : Charset) (rest : Text) :
    key? (string charset key ++ (": ".toList ++ rest)) = some (key, skipSpaces rest) := by
  have sameText : string charset key ++ (": ".toList ++ rest) =
      '"' :: (key.flatMap (codePoint charset) ++ '"' :: ':' :: ' ' :: rest) := by
    simp [string]
  have noSpace : skipSpaces (':' :: ' ' :: rest) = ':' :: ' ' :: rest := skipSpaces_cons rfl _
  have space : skipSpaces (' ' :: rest) = skipSpaces rest :=
    skipSpaces_of_isSpaces isSpaces_space rest
  rw [sameText, key?, stringRest?_flatMap charset isApart]
  simp [noSpace, space]

/-- The items of an array do not begin with its bracket. -/
theorem exists_head_of_itemLines {item : JsonValue} (isReadBack : IsReadBack item)
    (charset : Charset) (depth : Nat) (items : List JsonValue) (rest : Text) :
    ∃ c behind, skipSpaces (itemLines charset depth (item :: items) ++ rest) = c :: behind ∧
      c ≠ ']' := by
  obtain ⟨c, behind, same, notSpace, notBracket⟩ := exists_head_of_value isReadBack charset depth
  have head (text : Text) : skipSpaces (newLine depth ++ (value charset depth item ++ text)) =
      c :: (behind ++ text) := by
    rw [skipSpaces_newLine, same, List.cons_append, skipSpaces_cons notSpace]
  cases items with
  | nil => exact ⟨c, _, by rw [itemLines, List.append_assoc, head], notBracket⟩
  | cons next items =>
      exact ⟨c, _, by rw [itemLines, List.append_assoc, List.append_assoc, List.append_assoc, head],
        notBracket⟩

theorem skipSpaces_string (charset : Charset) (text : LooseText) (rest : Text) :
    skipSpaces (string charset text ++ rest) = string charset text ++ rest :=
  skipSpaces_cons rfl _

/-- The entries of an object do not begin with its brace. -/
theorem exists_head_of_entryLines (charset : Charset) (depth : Nat)
    (entry : LooseText × JsonValue) (entries : List (LooseText × JsonValue)) (rest : Text) :
    ∃ behind, skipSpaces (entryLines charset depth (entry :: entries) ++ rest) = '"' :: behind := by
  have head (text : Text) : ∃ behind,
      skipSpaces (newLine depth ++ (string charset entry.1 ++ text)) = '"' :: behind := by
    rw [skipSpaces_newLine, skipSpaces_string]
    exact ⟨_, rfl⟩
  cases entries with
  | nil => simpa only [entryLines, List.append_assoc] using head _
  | cons next entries => simpa only [entryLines, List.append_assoc] using head _

/-! ## Values -/

mutual

/-- A value is read from its text, whatever follows that is no part of a number. -/
theorem valueIn_value :
    ∀ {content : JsonValue} {steps depth : Nat} {rest : Text}, IsReadBack content →
      EndsNumber rest → 2 * (value charset depth content).length ≤ steps →
        valueIn steps (value charset depth content ++ rest) = .ok (content, rest)
  | content, 0, depth, rest, isReadBack, _, enough => by
      obtain ⟨c, behind, same, -⟩ := exists_head_of_value isReadBack charset depth
      rw [same, List.length_cons] at enough
      omega
  | .null, steps + 1, depth, rest, _, ends, enough => valueIn_of_denotes .null rfl ends enough
  | .bool part, steps + 1, depth, rest, _, ends, enough =>
      valueIn_of_denotes (.bool part) rfl ends enough
  | .int part, steps + 1, depth, rest, .int canWrite, ends, enough => by
      have isContent : JsonValue.ofScalar (.int part) = .ok (.int part) := by
        rw [JsonValue.ofScalar, if_pos canWrite]
      exact valueIn_of_denotes (denotes_intText part) isContent ends enough
  | .float part, steps + 1, depth, rest, .float ⟨isFinite, isRounded⟩, ends, enough =>
      valueIn_of_denotes (denotes_textWith isFinite isRounded _ _) rfl ends enough
  | .string part, steps + 1, depth, rest, .string isApart, ends, enough => by
      have sameText : value charset depth (.string part) ++ rest =
          '"' :: (part.flatMap (codePoint charset) ++ '"' :: rest) := by
        simp [value, string]
      rw [sameText, valueIn, stringRest?_flatMap charset isApart]
      rfl
  | .array [], steps + 1, depth, rest, _, ends, enough =>
      valueIn_of_denotes (.emptyArray isSpaces_nil) rfl ends enough
  | .array (item :: items), steps + 1, depth, rest, .array areRegular, ends, enough => by
      have sameText (rest : Text) : value charset depth (.array (item :: items)) ++ rest =
          '[' :: (itemLines charset (depth + 1) (item :: items) ++
            (newLine depth ++ ']' :: rest)) := by
        simp [value]
      have shorter : 2 * (itemLines charset (depth + 1) (item :: items)).length < steps := by
        rw [← List.append_nil (value charset depth _), sameText, List.length_cons,
          List.length_append] at enough
        omega
      have areRead : itemsIn steps (skipSpaces (itemLines charset (depth + 1) (item :: items) ++
          (newLine depth ++ ']' :: rest))) = .ok (item :: items, rest) :=
        itemsIn_itemLines (List.cons_ne_nil _ _) areRegular shorter
      rw [sameText]
      exact valueIn_array (exists_head_of_itemLines (areRegular item List.mem_cons_self) charset
        (depth + 1) items (newLine depth ++ ']' :: rest)) areRead
  | .object [], steps + 1, depth, rest, _, ends, enough =>
      valueIn_of_denotes (.emptyObject isSpaces_nil) rfl ends enough
  | .object (entry :: entries), steps + 1, depth, rest, .object distinct areKeys areRegular, ends,
      enough => by
      have sameText (rest : Text) : value charset depth (.object (entry :: entries)) ++ rest =
          '\x7b' :: (entryLines charset (depth + 1) (entry :: entries) ++
            (newLine depth ++ '\x7d' :: rest)) := by
        simp [value]
      have shorter : 2 * (entryLines charset (depth + 1) (entry :: entries)).length < steps := by
        rw [← List.append_nil (value charset depth _), sameText, List.length_cons,
          List.length_append] at enough
        omega
      have areRead : entriesIn steps (skipSpaces (entryLines charset (depth + 1) (entry :: entries) ++
          (newLine depth ++ '\x7d' :: rest))) = .ok (entry :: entries, rest) :=
        entriesIn_entryLines (List.cons_ne_nil _ _) areKeys areRegular shorter
      obtain ⟨behind, isHead⟩ := exists_head_of_entryLines charset (depth + 1) entry entries
        (newLine depth ++ '\x7d' :: rest)
      rw [sameText]
      exact valueIn_object distinct ⟨_, behind, isHead, by decide⟩ areRead

/-- The items of an array are read up to the bracket. -/
theorem itemsIn_itemLines :
    ∀ {items : List JsonValue} {steps depth below : Nat} {rest : Text}, items ≠ [] →
      (∀ item ∈ items, IsReadBack item) → 2 * (itemLines charset depth items).length < steps →
        itemsIn steps (skipSpaces (itemLines charset depth items ++
          (newLine below ++ ']' :: rest))) = .ok (items, rest)
  | _, 0, _, _, _, _, _, enough => absurd enough (Nat.not_lt_zero _)
  | [], _ + 1, _, _, _, nonempty, _, _ => absurd rfl nonempty
  | [item], steps + 1, depth, below, rest, _, areRegular, enough => by
      have isReadBack := areRegular item List.mem_cons_self
      rw [itemLines, List.length_append] at enough
      have isRead : valueIn steps (value charset depth item ++ (newLine below ++ ']' :: rest)) =
          .ok (item, newLine below ++ ']' :: rest) :=
        valueIn_value isReadBack (endsNumber_newLine _ _) (by omega)
      have isBracket : skipSpaces (newLine below ++ ']' :: rest) = ']' :: rest := by
        rw [skipSpaces_newLine, skipSpaces_cons rfl]
      rw [itemLines, List.append_assoc, skipSpaces_newLine, skipSpaces_value isReadBack, itemsIn,
        isRead]
      simp only [Bind.bind, Except.bind, isBracket]
  | item :: next :: items, steps + 1, depth, below, rest, _, areRegular, enough => by
      obtain ⟨isReadBack, areOthers⟩ := List.forall_mem_cons.mp areRegular
      have sameText (rest : Text) : itemLines charset depth (item :: next :: items) ++ rest =
          newLine depth ++ (value charset depth item ++ ',' ::
            (itemLines charset depth (next :: items) ++ rest)) := by
        simp [itemLines]
      rw [← List.append_nil (itemLines charset depth _), sameText] at enough
      simp only [List.length_append, List.length_cons] at enough
      have isRead : valueIn steps (value charset depth item ++ ',' ::
          (itemLines charset depth (next :: items) ++ (newLine below ++ ']' :: rest))) =
            .ok (item, ',' :: (itemLines charset depth (next :: items) ++
              (newLine below ++ ']' :: rest))) :=
        valueIn_value isReadBack (endsNumber_cons _ (by decide)) (by omega)
      have areRead : itemsIn steps (skipSpaces (itemLines charset depth (next :: items) ++
          (newLine below ++ ']' :: rest))) = .ok (next :: items, rest) :=
        itemsIn_itemLines (List.cons_ne_nil _ _) areOthers (by omega)
      rw [sameText, skipSpaces_newLine, skipSpaces_value isReadBack, itemsIn, isRead]
      simp only [Bind.bind, Except.bind, skipSpaces_cons (rfl : isSpace ',' = false), areRead]

/-- The entries of an object are read up to the brace. -/
theorem entriesIn_entryLines :
    ∀ {entries : List (LooseText × JsonValue)} {steps depth below : Nat} {rest : Text},
      entries ≠ [] → (∀ entry ∈ entries, entry.1.IsApart) → (∀ entry ∈ entries, IsReadBack entry.2) →
        2 * (entryLines charset depth entries).length < steps →
          entriesIn steps (skipSpaces (entryLines charset depth entries ++
            (newLine below ++ '\x7d' :: rest))) = .ok (entries, rest)
  | _, 0, _, _, _, _, _, _, enough => absurd enough (Nat.not_lt_zero _)
  | [], _ + 1, _, _, _, nonempty, _, _, _ => absurd rfl nonempty
  | [(key, inner)], steps + 1, depth, below, rest, _, areKeys, areRegular, enough => by
      have isApart := areKeys _ List.mem_cons_self
      have isReadBack := areRegular _ List.mem_cons_self
      simp only [entryLines, List.length_append] at enough
      have isRead : valueIn steps (value charset depth inner ++ (newLine below ++ '\x7d' :: rest)) =
          .ok (inner, newLine below ++ '\x7d' :: rest) :=
        valueIn_value isReadBack (endsNumber_newLine _ _) (by omega)
      have isBrace : skipSpaces (newLine below ++ '\x7d' :: rest) = '\x7d' :: rest := by
        rw [skipSpaces_newLine, skipSpaces_cons rfl]
      rw [entryLines, List.append_assoc, List.append_assoc, List.append_assoc, skipSpaces_newLine,
        skipSpaces_string, entriesIn, key?_string isApart, skipSpaces_value isReadBack]
      simp only [needed, Bind.bind, Except.bind, isRead, isBrace]
  | (key, inner) :: next :: entries, steps + 1, depth, below, rest, _, areKeys, areRegular,
      enough => by
      obtain ⟨isApart, otherKeys⟩ := List.forall_mem_cons.mp areKeys
      obtain ⟨isReadBack, areOthers⟩ := List.forall_mem_cons.mp areRegular
      have sameText (rest : Text) :
          entryLines charset depth ((key, inner) :: next :: entries) ++ rest =
            newLine depth ++ (string charset key ++ (": ".toList ++ (value charset depth inner ++
              ',' :: (entryLines charset depth (next :: entries) ++ rest)))) := by
        simp [entryLines]
      rw [← List.append_nil (entryLines charset depth _), sameText] at enough
      simp only [List.length_append, List.length_cons] at enough
      have isRead : valueIn steps (value charset depth inner ++ ',' ::
          (entryLines charset depth (next :: entries) ++ (newLine below ++ '\x7d' :: rest))) =
            .ok (inner, ',' :: (entryLines charset depth (next :: entries) ++
              (newLine below ++ '\x7d' :: rest))) :=
        valueIn_value isReadBack (endsNumber_cons _ (by decide)) (by omega)
      have areRead : entriesIn steps (skipSpaces (entryLines charset depth (next :: entries) ++
          (newLine below ++ '\x7d' :: rest))) = .ok (next :: entries, rest) :=
        entriesIn_entryLines (List.cons_ne_nil _ _) otherKeys areOthers (by omega)
      rw [sameText, skipSpaces_newLine, skipSpaces_string, entriesIn, key?_string isApart,
        skipSpaces_value isReadBack]
      simp only [needed, Bind.bind, Except.bind, isRead, skipSpaces_cons (rfl : isSpace ',' = false),
        areRead]

end

/-- A document is read back. -/
theorem read_document (charset : Charset) {content : JsonValue} (isReadBack : IsReadBack content) :
    read (document charset content) = .ok content := by
  have noSpace : skipSpaces (document charset content) = document charset content :=
    skipSpaces_value isReadBack charset 0 "\n".toList
  have isRead : valueIn (2 * (document charset content).length + 2) (document charset content) =
      .ok (content, "\n".toList) := by
    refine valueIn_value isReadBack (endsNumber_cons _ (by decide)) ?_
    rw [document, List.length_append]
    omega
  rw [read, noSpace, isRead]
  rfl

end Json

end ApiWorkshop
