import ApiWorkshop.Proofs.Region.Written
import ApiWorkshop.Proofs.Toml.Quoted
import ApiWorkshop.Proofs.Toml.Regular

/-!
# Documents line by line

A document is read by its lines: a line with a statement changes what was read before,
and a blank line does not.  A line with a bare key and a value adds that value under that
key; the values here are strings and arrays of strings.
-/

namespace ApiWorkshop

namespace Toml

open Text

/-! ## Values -/

theorem skipSpaces_cons {c : Char} (noSpace : isSpace c = false) (rest : Text) :
    skipSpaces (c :: rest) = c :: rest := by
  rw [skipSpaces, List.dropWhile_cons_of_neg (by rw [noSpace]; decide)]

theorem skipTrivia_cons {c : Char} (noSpace : isSpaceOrLine c = false) (noComment : c ≠ '#')
    (rest : Text) : skipTrivia false (c :: rest) = .ok (c :: rest) := by
  simp [skipTrivia, noSpace, noComment]

theorem skipTrivia_blank {text : Text} (areBlank : ∀ c ∈ text, isSpaceOrLine c = true) :
    skipTrivia false text = .ok [] := by
  induction text with
  | nil => rfl
  | cons c text ih =>
      obtain ⟨isBlank, restBlank⟩ := List.forall_mem_cons.mp areBlank
      rw [skipTrivia, if_pos isBlank, ih restBlank]

theorem valueIn_mark {mark : Char} (isMark : mark = '\x27' ∨ mark = '"') (steps : Nat)
    (text : Text) :
    valueIn (steps + 1) (mark :: text) = (stringValue mark text).map fun (inside, after) =>
      (.string (String.ofList inside), after) := by
  rcases isMark with rfl | rfl
  · rw [valueIn.eq_3]
    cases stringValue '\x27' text <;> rfl
  · rw [valueIn.eq_2]
    cases stringValue '"' text <;> rfl

theorem basicString_append {inside : Text} (arePlain : ∀ c ∈ inside, IsPlain c) (steps : Nat)
    (rest : Text) :
    basicString false (inside.length + (steps + 1)) (inside ++ '"' :: rest) =
      .ok (inside, rest) := by
  induction inside with
  | nil => rw [List.length_nil, Nat.zero_add]; rfl
  | cons c inside ih =>
      obtain ⟨isPlain, restPlain⟩ := List.forall_mem_cons.mp arePlain
      have isNext : (c :: inside).length + (steps + 1) = inside.length + (steps + 1) + 1 := by
        rw [List.length_cons]
        omega
      rw [isNext, List.cons_append, basicString_plain isPlain, ih restPlain]
      rfl

theorem stringValue_plain {inside rest : Text} (arePlain : ∀ c ∈ inside, IsPlain c)
    (ends : ∀ c ∈ rest.head?, c ≠ '"') :
    stringValue '"' (inside ++ '"' :: rest) = .ok (inside, rest) := by
  have start : ∀ c ∈ inside.head?, c ≠ '"' :=
    fun c isHead => (arePlain c (List.mem_of_mem_head? isHead)).1
  have isLength : (inside ++ '"' :: rest).length = inside.length + (rest.length + 1) := by
    rw [List.length_append, List.length_cons]
  rw [stringValue_eq start ends, if_pos rfl, isLength]
  exact basicString_append arePlain rest.length rest

theorem valueIn_empty (steps : Nat) (rest : Text) :
    valueIn (steps + 2) ('[' :: ']' :: rest) = .ok (.array [], rest) := by
  rw [valueIn.eq_4, skipTrivia_cons (by decide) (by decide), ok_bind, itemsIn.eq_2]
  rfl

/-- An array of one plain string on a line. -/
theorem valueIn_singleton {inside : Text} (arePlain : ∀ c ∈ inside, IsPlain c) (steps : Nat)
    (rest : Text) :
    valueIn (steps + 3) ('[' :: '"' :: (inside ++ '"' :: ']' :: rest)) =
      .ok (.array [.string (String.ofList inside)], rest) := by
  have isString : valueIn (steps + 1) ('"' :: (inside ++ '"' :: ']' :: rest)) =
      .ok (.string (String.ofList inside), ']' :: rest) := by
    rw [valueIn_mark (.inr rfl), stringValue_plain arePlain (by simp)]
    rfl
  have areItems : itemsIn (steps + 2) ('"' :: (inside ++ '"' :: ']' :: rest)) =
      .ok ([.string (String.ofList inside)], rest) := by
    rw [itemsIn.eq_3 _ _ (by simp), isString]
    rfl
  rw [valueIn.eq_4, skipTrivia_cons (by decide) (by decide), ok_bind, areItems]
  rfl

/-- An array that starts with a string goes on after it. -/
theorem exists_of_valueIn_array {steps : Nat} {text after : Text} {value : Value}
    (isRead : valueIn steps ('[' :: '"' :: text) = .ok (value, after)) :
    ∃ inside middle items, stringValue '"' text = .ok (inside, middle) ∧
      (∃ c ∈ middle, isSpaceOrLine c = false) ∧
      value = .array (.string (String.ofList inside) :: items) := by
  rcases steps with _ | _ | steps
  · simp [valueIn, stop] at isRead
  · rw [valueIn.eq_4, skipTrivia_cons (by decide) (by decide), ok_bind, itemsIn.eq_1] at isRead
    contradiction
  rw [valueIn.eq_4, skipTrivia_cons (by decide) (by decide), ok_bind] at isRead
  obtain ⟨⟨items, afterItems⟩, areItems, same⟩ := bind_eq_ok_iff.mp isRead
  obtain ⟨rfl, rfl⟩ := Prod.mk.inj (Except.ok.inj same)
  rw [itemsIn.eq_3 _ _ (by simp)] at areItems
  obtain ⟨⟨item, middle⟩, isItem, afterItem⟩ := bind_eq_ok_iff.mp areItems
  obtain ⟨left, isLeft, goesOn⟩ := bind_eq_ok_iff.mp afterItem
  cases steps with
  | zero => simp [valueIn, stop] at isItem
  | succ steps =>
      rw [valueIn_mark (.inr rfl)] at isItem
      obtain ⟨⟨inside, afterString⟩, isString, same⟩ := map_eq_ok_iff.mp isItem
      obtain ⟨rfl, rfl⟩ := Prod.mk.inj same
      have notBlank : ∃ c ∈ afterString, isSpaceOrLine c = false := by
        by_contra noMore
        have areBlank : ∀ c ∈ afterString, isSpaceOrLine c = true := by simpa using noMore
        rw [skipTrivia_blank areBlank] at isLeft
        obtain rfl := Except.ok.inj isLeft
        contradiction
      have startsWith : ∃ others, items = .string (String.ofList inside) :: others := by
        dsimp only at goesOn
        split at goesOn
        · obtain ⟨rfl, -⟩ := Prod.mk.inj (Except.ok.inj goesOn)
          exact ⟨_, rfl⟩
        · obtain ⟨afterComma, -, areMore⟩ := bind_eq_ok_iff.mp goesOn
          obtain ⟨⟨others, afterOthers⟩, -, same⟩ := bind_eq_ok_iff.mp areMore
          obtain ⟨rfl, -⟩ := Prod.mk.inj (Except.ok.inj same)
          exact ⟨_, rfl⟩
        · contradiction
      obtain ⟨others, rfl⟩ := startsWith
      exact ⟨inside, afterString, others, isString, notBlank, rfl⟩

/-! ## Pairs -/

/-- A name that stands in a document without quotation marks. -/
def IsBare (name : Text) : Prop :=
  name ≠ [] ∧ ∀ c ∈ name, isBareKey c = true

instance : DecidablePred IsBare :=
  fun _ => inferInstanceAs (Decidable (_ ∧ _))

theorem ne_of_isBareKey {c d : Char} (isBare : isBareKey c = true)
    (notBare : isBareKey d = false) : c ≠ d := by
  rintro rfl
  rw [isBare] at notBare
  contradiction

theorem IsBare.exists_cons {name : Text} (isBare : IsBare name) :
    ∃ c others, name = c :: others ∧ isBareKey c = true ∧ isSpace c = false ∧ c ≠ '\n' := by
  obtain ⟨c, others, rfl⟩ := List.exists_cons_of_ne_nil isBare.1
  have isFirst := isBare.2 c List.mem_cons_self
  have noBlank : c ≠ ' ' := ne_of_isBareKey isFirst (by decide)
  have noTab : c ≠ '\t' := ne_of_isBareKey isFirst (by decide)
  exact ⟨c, others, rfl, isFirst, by simp [isSpace, isSpaceOrTab, noBlank, noTab],
    ne_of_isBareKey isFirst (by decide)⟩

theorem keyPart_bare {name rest : Text} (isBare : IsBare name)
    (ends : ∀ c ∈ rest.head?, isBareKey c = false) :
    keyPart (name ++ rest) = .ok (String.ofList name, rest) := by
  have isTaken : (name ++ rest).takeWhile isBareKey = name := by
    rw [List.takeWhile_append_of_pos isBare.2]
    cases rest with
    | nil => simp
    | cons c rest => rw [List.takeWhile_cons_of_neg (by simp [ends c rfl]), List.append_nil]
  have isDropped : (name ++ rest).dropWhile isBareKey = rest := by
    rw [List.dropWhile_append_of_pos isBare.2]
    cases rest with
    | nil => rfl
    | cons c rest => rw [List.dropWhile_cons_of_neg (by simp [ends c rfl])]
  obtain ⟨c, others, rfl, isFirst, -⟩ := isBare.exists_cons
  simp only [List.cons_append] at isTaken isDropped ⊢
  simp only [keyPart, isFirst, if_true, isTaken, isDropped]

/-- A bare key on its own, with an equals sign after it. -/
theorem key_bare {name : String} (isBare : IsBare name.toList) (rest : Text) :
    key (name.toList ++ ' ' :: '=' :: rest) = .ok ([name], '=' :: rest) := by
  rw [key, keyParts.eq_2, keyPart_bare isBare (by simp [isBareKey]), String.ofList_toList, ok_bind]
  rfl

/-- A pair of a bare key and a value adds that value under that key. -/
theorem statement_pair {name : String} (isBare : IsBare name.toList) {c : Char}
    (noSpace : isSpace c = false) (builder : Builder) (rest : Text) :
    ∃ fuel, statement builder (name.toList ++ ' ' :: '=' :: ' ' :: c :: rest) =
      valueIn (fuel + 3) (c :: rest) >>= fun (value, after) =>
        stoppedAt after (builder.addPair [name] value) >>= fun changed =>
          .ok (changed, after) := by
  have isPair (steps : Nat) :
      keyValueIn (steps + 1) (name.toList ++ ' ' :: '=' :: ' ' :: c :: rest) =
        (valueIn steps (c :: rest)).map fun (value, after) => (([name], value), after) := by
    have skipped : skipSpaces (' ' :: c :: rest) = c :: rest := skipSpaces_cons noSpace rest
    rw [keyValueIn.eq_2, key_bare isBare, ok_bind]
    simp only [skipped]
    cases valueIn steps (c :: rest) <;> rfl
  generalize isTail : ' ' :: '=' :: ' ' :: c :: rest = tail at isPair ⊢
  obtain ⟨first, others, isName, isFirst, -⟩ := isBare.exists_cons
  have noHeader : first ≠ '[' := ne_of_isBareKey isFirst (by decide)
  have noComment : first ≠ '#' := ne_of_isBareKey isFirst (by decide)
  obtain ⟨fuel, isFuel⟩ : ∃ fuel, 3 * (first :: (others ++ tail)).length + 3 = fuel + 3 + 1 :=
    ⟨3 * (others ++ tail).length + 2, by rw [List.length_cons]; omega⟩
  have isStatement := statement.eq_4 builder first (others ++ tail)
    (fun _ isMark _ => noHeader isMark) noHeader noComment
  rw [isFirst, Bool.true_or, Bool.true_or, if_pos rfl, keyValue, isFuel, ← List.cons_append,
    ← isName, isPair] at isStatement
  refine ⟨fuel, isStatement.trans ?_⟩
  cases valueIn (fuel + 3) (c :: rest) <;> rfl

/-! ## Lines -/

/-- A line with a statement is read before what follows it. -/
theorem statements_cons {c : Char} (noSpace : isSpace c = false) (noLine : c ≠ '\n') (steps : Nat)
    (builder : Builder) (rest : Text) :
    statements (steps + 1) builder (c :: rest) =
      statement builder (c :: rest) >>= fun (changed, after) =>
        statementEnd after >>= statements steps changed := by
  rw [statements, skipSpaces_cons noSpace]
  split
  next isEmpty => contradiction
  next isLine => exact absurd (List.cons.inj isLine).1 noLine
  · rfl

theorem statements_pair {name : String} (isBare : IsBare name.toList) {c : Char}
    (noSpace : isSpace c = false) (steps : Nat) (builder : Builder) (rest : Text) :
    ∃ fuel, statements (steps + 1) builder (name.toList ++ ' ' :: '=' :: ' ' :: c :: rest) =
      valueIn (fuel + 3) (c :: rest) >>= fun (value, after) =>
        stoppedAt after (builder.addPair [name] value) >>= fun changed =>
          statementEnd after >>= statements steps changed := by
  obtain ⟨fuel, isPair⟩ := statement_pair isBare noSpace builder rest
  generalize ' ' :: '=' :: ' ' :: c :: rest = tail at isPair ⊢
  obtain ⟨first, others, isName, -, notSpace, notLine⟩ := isBare.exists_cons
  rw [isName, List.cons_append] at isPair ⊢
  rw [statements_cons notSpace notLine, isPair, bind_assoc]
  refine ⟨fuel, bind_congr fun found => ?_⟩
  rw [bind_assoc]
  rfl

/-- A line that takes a step of reading and makes a change, whatever follows it. -/
def ReadsLine (line : Text) (builder changed : Builder) : Prop :=
  ∀ steps rest, statements (steps + 1) builder (line ++ '\n' :: rest) =
    statements steps changed rest

/-- Lines that take a step of reading each. -/
def ReadsLines (lines : List Text) (builder changed : Builder) : Prop :=
  ∀ steps rest, statements (steps + lines.length) builder (Text.unlines lines ++ rest) =
    statements steps changed rest

theorem readsLines_nil (builder : Builder) : ReadsLines [] builder builder :=
  fun _ _ => rfl

theorem readsLines_cons {line : Text} {lines : List Text} {builder next changed : Builder}
    (first : ReadsLine line builder next) (others : ReadsLines lines next changed) :
    ReadsLines (line :: lines) builder changed := by
  intro steps rest
  have isFirst := first (steps + lines.length) (Text.unlines lines ++ rest)
  rw [others steps rest] at isFirst
  rw [List.length_cons, ← Nat.add_assoc, Text.unlines_cons, List.append_assoc, List.cons_append]
  exact isFirst

theorem readsLines_append {lines others : List Text} {builder next changed : Builder}
    (first : ReadsLines lines builder next) (second : ReadsLines others next changed) :
    ReadsLines (lines ++ others) builder changed := by
  intro steps rest
  have isFirst := first (steps + others.length) (Text.unlines others ++ rest)
  rw [second steps rest] at isFirst
  rw [List.length_append, Nat.add_comm lines.length, ← Nat.add_assoc, Text.unlines_append,
    List.append_assoc]
  exact isFirst

theorem readsLine_blank (builder : Builder) : ReadsLine [] builder builder :=
  fun _ _ => rfl

theorem readsLine_of_statement {c : Char} (noSpace : isSpace c = false) (noLine : c ≠ '\n')
    {line : Text} {builder changed : Builder}
    (isRead : ∀ rest, statement builder (c :: (line ++ '\n' :: rest)) =
      .ok (changed, '\n' :: rest)) : ReadsLine (c :: line) builder changed := by
  intro steps rest
  rw [List.cons_append, statements_cons noSpace noLine, isRead rest]
  rfl

theorem readsLine_pair {name : String} (isBare : IsBare name.toList) {c : Char}
    (noSpace : isSpace c = false) {builder changed : Builder} {text : Text} {value : Value}
    (isValue : ∀ steps rest, valueIn (steps + 3) (c :: (text ++ '\n' :: rest)) =
      .ok (value, '\n' :: rest))
    (isAdded : builder.addPair [name] value = .ok changed) :
    ReadsLine (name.toList ++ ' ' :: '=' :: ' ' :: c :: text) builder changed := by
  intro steps rest
  obtain ⟨fuel, isPair⟩ := statements_pair isBare noSpace steps builder (text ++ '\n' :: rest)
  rw [List.append_assoc]
  refine isPair.trans ?_
  simp only [isValue, ok_bind, isAdded]
  rfl

/-- What is left on a line after a statement is only a comment, if anything. -/
theorem eq_of_statementEnd {middle rest after : Text} (noLine : '\n' ∉ middle)
    (isEnd : statementEnd (middle ++ '\n' :: rest) = .ok after) : after = rest := by
  have skipped : ∃ left, skipSpaces (middle ++ '\n' :: rest) = left ++ '\n' :: rest ∧
      '\n' ∉ left := by
    refine ⟨middle.dropWhile isSpace, ?_, fun member => noLine ?_⟩
    · rw [skipSpaces, List.dropWhile_append]
      split
      next areSpaces =>
        rw [List.isEmpty_iff.mp areSpaces]
        rfl
      · rfl
    · exact (List.dropWhile_sublist _).mem member
  obtain ⟨left, isLeft, noLineLeft⟩ := skipped
  obtain ⟨afterComment, isComment, isEnd⟩ := bind_eq_ok_iff.mp isEnd
  rw [isLeft] at isComment
  cases left with
  | nil =>
      obtain rfl := Except.ok.inj isComment
      exact (Except.ok.inj isEnd).symm
  | cons c left =>
      obtain ⟨different, restApart⟩ := not_or.mp (mt List.mem_cons.mpr noLineLeft)
      by_cases isMark : c = '#'
      · subst isMark
        have inComment : ∀ c ∈ left, (c != '\n') = true := by
          intro c member
          exact bne_iff_ne.mpr fun isLine => restApart (isLine ▸ member)
        have isDropped : (left ++ '\n' :: rest).dropWhile (· != '\n') = '\n' :: rest := by
          rw [List.dropWhile_append_of_pos inComment]
          rfl
        rw [List.cons_append, skipComment] at isComment
        split at isComment
        · contradiction
        · rw [isDropped] at isComment
          obtain rfl := Except.ok.inj isComment
          exact (Except.ok.inj isEnd).symm
      · rw [List.cons_append, skipComment.eq_2 _ (by simp [isMark])] at isComment
        obtain rfl := Except.ok.inj isComment
        split at isEnd
        next isEmpty => contradiction
        next isLine => exact absurd (List.cons.inj isLine).1.symm different
        · contradiction

theorem readsLine_string {name inside : String} (isBare : IsBare name.toList)
    (arePlain : ∀ c ∈ inside.toList, IsPlain c) {builder changed : Builder}
    (isAdded : builder.addPair [name] (.string inside) = .ok changed) :
    ReadsLine (name.toList ++ ' ' :: '=' :: ' ' :: '"' :: (inside.toList ++ ['"'])) builder
      changed := by
  refine readsLine_pair isBare (by decide) (fun steps rest => ?_) isAdded
  have isText : inside.toList ++ ['"'] ++ '\n' :: rest = inside.toList ++ '"' :: '\n' :: rest := by
    simp
  rw [valueIn_mark (.inr rfl), isText, stringValue_plain arePlain (by simp)]
  simp only [Except.map, String.ofList_toList]

theorem readsLine_singleton {name inside : String} (isBare : IsBare name.toList)
    (arePlain : ∀ c ∈ inside.toList, IsPlain c) {builder changed : Builder}
    (isAdded : builder.addPair [name] (.array [.string inside]) = .ok changed) :
    ReadsLine (name.toList ++ ' ' :: '=' :: ' ' :: '[' :: '"' :: (inside.toList ++ ['"', ']']))
      builder changed := by
  refine readsLine_pair isBare (by decide) (fun steps rest => ?_) isAdded
  have isText : '"' :: (inside.toList ++ ['"', ']']) ++ '\n' :: rest =
      '"' :: (inside.toList ++ '"' :: ']' :: '\n' :: rest) := by
    simp
  rw [isText, valueIn_singleton arePlain, String.ofList_toList]

theorem isSpace_delimiter (text : Text) : isSpace (delimiter text) = false := by
  rcases delimiter_eq text with same | same <;> rw [same] <;> decide

theorem newline_ne_delimiter (text : Text) : '\n' ≠ delimiter text := by
  rcases delimiter_eq text with same | same <;> rw [same] <;> decide

theorem quoted_append (text : LooseText) (rest : Text) :
    text.quoted ++ rest = delimiter text.shown ::
      (text.flatMap (LooseText.escaped (delimiter text.shown)) ++
        delimiter text.shown :: rest) := by
  simp [LooseText.quoted]

theorem readsLine_quoted {name : String} (isBare : IsBare name.toList) {text : LooseText}
    (alike : ReadsAlike text) {builder changed : Builder}
    (isAdded : builder.addPair [name] (.string text.label) = .ok changed) :
    ReadsLine (name.toList ++ ' ' :: '=' :: ' ' :: text.quoted) builder changed := by
  refine readsLine_pair isBare (isSpace_delimiter _) (fun steps rest => ?_) isAdded
  have ends : ∀ c ∈ ('\n' :: rest).head?, c ≠ delimiter text.shown := by
    simpa using newline_ne_delimiter text.shown
  have isValue := valueIn_mark (delimiter_eq text.shown) (steps + 2)
    (text.flatMap (LooseText.escaped (delimiter text.shown)) ++
      delimiter text.shown :: '\n' :: rest)
  rw [stringValue_of_readsAlike alike ends] at isValue
  exact (congrArg (valueIn (steps + 3)) (quoted_append text ('\n' :: rest))).trans isValue

/-- A document that has a line with a pair goes on with what is left of the line. -/
theorem exists_of_statements_pair {name : String} (isBare : IsBare name.toList) {c : Char}
    (noSpace : isSpace c = false) {steps : Nat} {builder final : Builder} {rest : Text}
    (isRead : statements (steps + 1) builder (name.toList ++ ' ' :: '=' :: ' ' :: c :: rest) =
      .ok final) :
    ∃ fuel value after changed left, valueIn (fuel + 3) (c :: rest) = .ok (value, after) ∧
      builder.addPair [name] value = .ok changed ∧
      statementEnd after = .ok left ∧ statements steps changed left = .ok final := by
  obtain ⟨fuel, isPair⟩ := statements_pair isBare noSpace steps builder rest
  rw [isPair] at isRead
  obtain ⟨⟨value, after⟩, isValue, isNext⟩ := bind_eq_ok_iff.mp isRead
  obtain ⟨changed, isAdded, isMore⟩ := bind_eq_ok_iff.mp isNext
  obtain ⟨left, isEnd, isFinal⟩ := bind_eq_ok_iff.mp isMore
  exact ⟨fuel, value, after, changed, left, isValue, stoppedAt_eq_ok_iff.mp isAdded, isEnd,
    isFinal⟩

/-- A line with a quoted literal adds some string, which is the text of the literal only if
that text reads alike, and the next line is read as it stands. -/
theorem exists_of_statements_quoted {name : String} (isBare : IsBare name.toList)
    {text : LooseText} {steps : Nat} {builder final : Builder} {rest : Text}
    (isRead : statements (steps + 1) builder
      (name.toList ++ ' ' :: '=' :: ' ' :: text.quoted ++ '\n' :: rest) = .ok final) :
    ∃ inside changed, (LooseText.ofText inside = text ↔ ReadsAlike text) ∧
      builder.addPair [name] (.string (String.ofList inside)) = .ok changed ∧
      statements steps changed rest = .ok final := by
  have ends : ∀ c ∈ ('\n' :: rest).head?, c ≠ delimiter text.shown := by
    simpa using newline_ne_delimiter text.shown
  rw [List.append_assoc, List.cons_append, List.cons_append, List.cons_append,
    quoted_append] at isRead
  obtain ⟨fuel, value, after, changed, left, isValue, isAdded, isEnd, isFinal⟩ :=
    exists_of_statements_pair isBare (isSpace_delimiter _) isRead
  rw [valueIn_mark (delimiter_eq _)] at isValue
  obtain ⟨⟨inside, afterString⟩, isString, same⟩ := map_eq_ok_iff.mp isValue
  obtain ⟨rfl, rfl⟩ := Prod.mk.inj same
  obtain ⟨readsAlike, middle, rfl, inLiteral⟩ := exists_of_stringValue ends isString
  have noLine : '\n' ∉ middle := by
    intro member
    have notBreak := not_break_of_mem_literal text '\n' (inLiteral _ member)
    contradiction
  obtain rfl := eq_of_statementEnd noLine isEnd
  exact ⟨inside, changed, readsAlike, isAdded, isFinal⟩

end Toml

end ApiWorkshop
