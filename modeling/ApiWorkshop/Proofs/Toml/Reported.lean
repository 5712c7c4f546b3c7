import Mathlib.Data.List.Basic
import ApiWorkshop.Proofs.Number.Digits
import ApiWorkshop.Proofs.Text.Classes
import ApiWorkshop.Toml.Report

/-!
# Which place a report tells

A report ends in the place of its fault, and the place that is told is the first one that
the report names.  So it is the place of the fault exactly if the words before it name
none; else the report is cut off where they name one, for instance inside a quoted key.
-/

namespace ApiWorkshop

namespace Toml

open Text

/-! ## Places as they are named -/

/-- At least one decimal digit, of any script. -/
def AreDigits (text : Text) : Prop :=
  text ≠ [] ∧ ∀ c ∈ text, isDecimalDigit c = true

/-- A line and a column, by their digits, as a report names them. -/
def placeNamed (line column : Text) : Text :=
  "(at line " ++ line ++ ", column " ++ column ++ ")"

/-- A text names a place somewhere. -/
def NamesPlace (text : Text) : Prop :=
  ∃ before line column after, AreDigits line ∧ AreDigits column ∧
    text = before ++ placeNamed line column ++ after

/-- The values of the digits of a line and a column. -/
def writtenPlace (line column : Text) : WrittenPlace :=
  ⟨line.filterMap decimalDigit?, column.filterMap decimalDigit?⟩

theorem takeDigits?_append {digits rest : Text} (areDigits : AreDigits digits)
    (ends : ∀ c ∈ rest.head?, isDecimalDigit c = false) :
    takeDigits? (digits ++ rest) = some (digits.filterMap decimalDigit?, rest) := by
  obtain ⟨nonempty, inRun⟩ := areDigits
  obtain ⟨taken, dropped⟩ := span_append inRun ends
  rw [takeDigits?, taken, dropped]
  split
  next noValues =>
    obtain ⟨c, member⟩ := List.exists_mem_of_ne_nil digits nonempty
    obtain ⟨value, isValue⟩ := Option.isSome_iff_exists.mp (inRun c member)
    have found := List.mem_filterMap.mpr ⟨c, member, isValue⟩
    rw [noValues] at found
    exact absurd found List.not_mem_nil
  next => rfl

theorem exists_of_takeDigits? {text rest : Text} {values : List Nat}
    (taken : takeDigits? text = some (values, rest)) :
    ∃ digits, AreDigits digits ∧ text = digits ++ rest ∧
      values = digits.filterMap decimalDigit? := by
  rw [takeDigits?] at taken
  split at taken
  · contradiction
  next someValues =>
    obtain ⟨rfl, rfl⟩ := Prod.mk.inj (Option.some.inj taken)
    refine ⟨text.takeWhile isDecimalDigit, ⟨fun isEmpty => someValues ?_, ?_⟩,
      List.takeWhile_append_dropWhile.symm, rfl⟩
    · rw [isEmpty, List.filterMap_nil]
    · exact List.all_eq_true.mp List.all_takeWhile

theorem placeNamed_append (line column after : Text) :
    placeNamed line column ++ after =
      "(at line " ++ (line ++ (", column " ++ (column ++ (")" ++ after)))) := by
  have regrouped (first comma last : Text) : first ++ line ++ comma ++ column ++ last ++ after =
      first ++ (line ++ (comma ++ (column ++ (last ++ after)))) := by
    simp only [List.append_assoc]
  exact regrouped ..

/-- A place is read where a text begins with one as it is named. -/
theorem placeAtStart?_eq_some_iff {text : Text} {written : WrittenPlace} :
    placeAtStart? text = some written ↔ ∃ line column after, AreDigits line ∧
      AreDigits column ∧ text = placeNamed line column ++ after ∧
        written = writtenPlace line column := by
  constructor
  · intro isRead
    simp only [placeAtStart?, Option.bind_eq_bind, Option.bind_eq_some_iff, Prod.exists,
      after?_eq_some_iff] at isRead
    obtain ⟨_, rfl, lineValues, _, isLine, _, rfl, columnValues, _, isColumn, after, rfl, same⟩ :=
      isRead
    obtain ⟨line, lineDigits, rfl, rfl⟩ := exists_of_takeDigits? isLine
    obtain ⟨column, columnDigits, rfl, rfl⟩ := exists_of_takeDigits? isColumn
    exact ⟨line, column, after, lineDigits, columnDigits, (placeNamed_append ..).symm,
      (Option.some.inj same).symm⟩
  · rintro ⟨line, column, after, lineDigits, columnDigits, rfl, rfl⟩
    have isLine : takeDigits? (line ++ (", column " ++ (column ++ (")" ++ after)))) = _ :=
      takeDigits?_append lineDigits fun c isHead => Option.some.inj isHead ▸ rfl
    have isColumn : takeDigits? (column ++ (")" ++ after)) = _ :=
      takeDigits?_append columnDigits fun c isHead => Option.some.inj isHead ▸ rfl
    rw [placeNamed_append]
    simp only [placeAtStart?, after?_append, isLine, isColumn, Option.bind_eq_bind,
      Option.bind_some, writtenPlace]

theorem placeNamed_eq_cons (line column : Text) :
    ∃ rest, placeNamed line column = '(' :: rest :=
  ⟨_, rfl⟩

theorem placeNamed_eq_concat (line column : Text) :
    ∃ rest, placeNamed line column = rest ++ [')'] :=
  ⟨_, rfl⟩

/-! ## The first place -/

theorem not_namesPlace_nil : ¬ NamesPlace [] := by
  rintro ⟨before, line, column, after, -, -, same⟩
  obtain ⟨rest, isNamed⟩ := placeNamed_eq_cons line column
  simp [isNamed] at same

/-- A place is named at the start of a text or after its first character. -/
theorem namesPlace_cons_iff {c : Char} {text : Text} :
    NamesPlace (c :: text) ↔ (placeAtStart? (c :: text)).isSome = true ∨ NamesPlace text := by
  constructor
  · rintro ⟨before, line, column, after, lineDigits, columnDigits, same⟩
    cases before with
    | nil =>
        exact .inl (Option.isSome_iff_exists.mpr ⟨_, placeAtStart?_eq_some_iff.mpr
          ⟨line, column, after, lineDigits, columnDigits, same, rfl⟩⟩)
    | cons d before =>
        exact .inr ⟨before, line, column, after, lineDigits, columnDigits, (List.cons.inj same).2⟩
  · rintro (atStart | ⟨before, line, column, after, lineDigits, columnDigits, rfl⟩)
    · obtain ⟨written, isRead⟩ := Option.isSome_iff_exists.mp atStart
      obtain ⟨line, column, after, lineDigits, columnDigits, same, -⟩ :=
        placeAtStart?_eq_some_iff.mp isRead
      exact ⟨[], line, column, after, lineDigits, columnDigits, same⟩
    · exact ⟨c :: before, line, column, after, lineDigits, columnDigits, rfl⟩

/-- A text that names a place has a first one. -/
theorem NamesPlace.exists_first {text : Text} (names : NamesPlace text) :
    ∃ before line column after, AreDigits line ∧ AreDigits column ∧ ¬ NamesPlace before ∧
      text = before ++ placeNamed line column ++ after := by
  induction text with
  | nil => exact absurd names not_namesPlace_nil
  | cons c text ih =>
      cases isRead : placeAtStart? (c :: text) with
      | some written =>
          obtain ⟨line, column, after, lineDigits, columnDigits, same, -⟩ :=
            placeAtStart?_eq_some_iff.mp isRead
          exact ⟨[], line, column, after, lineDigits, columnDigits, not_namesPlace_nil, same⟩
      | none =>
          have inRest : NamesPlace text := by simpa [namesPlace_cons_iff, isRead] using names
          obtain ⟨before, line, column, after, lineDigits, columnDigits, namesNone, rfl⟩ :=
            ih inRest
          refine ⟨c :: before, line, column, after, lineDigits, columnDigits, ?_, rfl⟩
          rw [namesPlace_cons_iff, not_or]
          refine ⟨fun atStart => ?_, namesNone⟩
          obtain ⟨written, isFirst⟩ := Option.isSome_iff_exists.mp atStart
          obtain ⟨otherLine, otherColumn, more, otherLineDigits, otherColumnDigits, same, -⟩ :=
            placeAtStart?_eq_some_iff.mp isFirst
          rw [Option.eq_none_iff_forall_ne_some] at isRead
          refine isRead _ (placeAtStart?_eq_some_iff.mpr ⟨otherLine, otherColumn,
            more ++ (placeNamed line column ++ after), otherLineDigits, otherColumnDigits, ?_, rfl⟩)
          rw [← List.append_assoc, ← same, List.append_assoc]
          rfl

theorem findPlace?_eq_none_iff {text : Text} : findPlace? text = none ↔ ¬ NamesPlace text := by
  induction text with
  | nil => exact iff_of_true rfl not_namesPlace_nil
  | cons c text ih =>
      rw [findPlace?, namesPlace_cons_iff, not_or]
      cases placeAtStart? (c :: text) with
      | some written => simp
      | none => simpa using ih

/-- There is one opening bracket in a named place, so a place that begins before a bracket
ends before it. -/
theorem exists_eq_placeNamed_append {line column after front rest : Text}
    (lineDigits : AreDigits line) (columnDigits : AreDigits column) (nonempty : front ≠ [])
    (same : placeNamed line column ++ after = front ++ '(' :: rest) :
    ∃ more, front = placeNamed line column ++ more := by
  have noBracket {digits : Text} (areDigits : AreDigits digits) : '(' ∉ digits := fun member =>
    absurd (areDigits.2 _ member) (by decide)
  obtain ⟨tail, isTail⟩ := placeNamed_eq_cons line column
  have notInTail : '(' ∉ tail := by
    have isRest : tail = "at line " ++ line ++ ", column " ++ column ++ ")" :=
      ((List.cons.inj isTail).2).symm
    rw [isRest]
    simp only [List.mem_append, not_or]
    exact ⟨⟨⟨⟨by decide, noBracket lineDigits⟩, by decide⟩, noBracket columnDigits⟩, by decide⟩
  rcases List.append_eq_append_iff.mp same with ⟨more, isFront, -⟩ | ⟨more, isNamed, isRest⟩
  · exact ⟨more, isFront⟩
  · cases more with
    | nil => exact ⟨[], by simpa using isNamed.symm⟩
    | cons c more =>
        obtain ⟨rfl, -⟩ := List.cons.inj isRest
        cases front with
        | nil => exact absurd rfl nonempty
        | cons d front =>
            rw [isTail] at isNamed
            rw [(List.cons.inj isNamed).2] at notInTail
            simp at notInTail

/-- The place after a text that names none is the first one. -/
theorem findPlace?_append {front line column after : Text} (namesNone : ¬ NamesPlace front)
    (lineDigits : AreDigits line) (columnDigits : AreDigits column) :
    findPlace? (front ++ placeNamed line column ++ after) =
      some (front, writtenPlace line column) := by
  obtain ⟨tail, isTail⟩ := placeNamed_eq_cons line column
  induction front with
  | nil =>
      have isRead : placeAtStart? (placeNamed line column ++ after) =
          some (writtenPlace line column) :=
        placeAtStart?_eq_some_iff.mpr
          ⟨line, column, after, lineDigits, columnDigits, rfl, rfl⟩
      rw [isTail, List.cons_append] at isRead
      rw [List.nil_append, isTail, List.cons_append, findPlace?, isRead]
  | cons c front ih =>
      have notRead : placeAtStart? (c :: (front ++ placeNamed line column ++ after)) = none := by
        rw [Option.eq_none_iff_forall_ne_some]
        intro written isRead
        obtain ⟨otherLine, otherColumn, otherAfter, otherLineDigits, otherColumnDigits, same, -⟩ :=
          placeAtStart?_eq_some_iff.mp isRead
        have atBracket : placeNamed otherLine otherColumn ++ otherAfter =
            (c :: front) ++ '(' :: (tail ++ after) := by
          rw [← same, isTail, List.append_assoc]
          rfl
        obtain ⟨more, isFront⟩ := exists_eq_placeNamed_append otherLineDigits otherColumnDigits
          (List.cons_ne_nil c front) atBracket
        exact namesNone
          ⟨[], otherLine, otherColumn, more, otherLineDigits, otherColumnDigits, isFront⟩
      rw [List.cons_append, List.cons_append, findPlace?, notRead,
        ih fun names => namesNone (namesPlace_cons_iff.mpr (.inr names))]
      rfl

/-! ## What is told -/

theorem decimalDigit?_of_isDigit {c : Char} (isAscii : isDigit c = true) :
    decimalDigit? c = digit? c := by
  rw [isDigit, Bool.and_eq_true, decide_eq_true_eq, decide_eq_true_eq] at isAscii
  have inRun : 0x30 ≤ c.toNat ∧ c.toNat ≤ 0x30 + 9 := isAscii
  rw [decimalDigit?, zeros, List.find?_cons_of_pos (by simpa using inRun), digit?, if_pos isAscii]
  rfl

theorem areDigits_padded (number : Nat) : AreDigits (padded 1 number) :=
  ⟨padded_ne_nil 1 number, fun _ member => isDecimalDigit_of_isDigit (isDigit_of_mem_padded member)⟩

theorem filterMap_padded (number : Nat) :
    (padded 1 number).filterMap decimalDigit? = (padded 1 number).filterMap digit? :=
  List.filterMap_congr fun _ member => decimalDigit?_of_isDigit (isDigit_of_mem_padded member)

theorem length_padded_le_iff (number : Nat) :
    (padded 1 number).length ≤ Decimal.digitLimit ↔ Decimal.isWritable number = true := by
  have atLeastOne : 1 ≤ (Nat.toDigits 10 number).length :=
    List.length_pos_iff.mpr Nat.toDigits_ne_nil
  have sameLength : (padded 1 number).length = (Nat.toDigits 10 number).length := by
    rw [padded, List.length_append, List.length_replicate]
    omega
  rw [sameLength, Nat.length_toDigits_le_iff (by decide) (by decide), Decimal.isWritable,
    decide_eq_true_eq, Int.natAbs_natCast]
  delta Decimal.sizeBound
  rw [Nat.pow_eq]

/-- A place is read as it is written, unless one of its numbers is too long. -/
theorem read?_writtenPlace_padded (place : Place) :
    (writtenPlace (padded 1 place.line) (padded 1 place.column)).read? =
      if Decimal.isWritable place.line && Decimal.isWritable place.column then some place
      else none := by
  have isShort (number : Nat) : ((padded 1 number).filterMap decimalDigit?).length ≤
      Decimal.digitLimit ↔ Decimal.isWritable number = true := by
    rw [filterMap_padded, length_filterMap_digit? fun _ => isDigit_of_mem_padded,
      length_padded_le_iff]
  have isNumber (number : Nat) :
      ofDigits 10 ((padded 1 number).filterMap decimalDigit?) = number := by
    rw [filterMap_padded]
    exact decimal_padded 1 number
  simp only [WrittenPlace.read?, writtenPlace, isNumber, Bool.and_eq_true, decide_eq_true_eq,
    isShort]

theorem begins_ofList {c : Char} (rest : Text) (isLetter : c.isAlpha = true) :
    (String.ofList (c :: rest)).toList.head?.any Char.isAlpha = true := by
  rw [String.toList_ofList]
  exact isLetter

theorem begins_append {front : String} (back : String)
    (begins : front.toList.head?.any Char.isAlpha = true) :
    (front ++ back).toList.head?.any Char.isAlpha = true := by
  rw [String.toList_append]
  cases isFront : front.toList with
  | nil => simp [isFront] at begins
  | cons c rest => simpa [isFront] using begins

/-- The words of a fault begin with a letter. -/
theorem Fault.begins_message (fault : Fault) :
    fault.message.toList.head?.any Char.isAlpha = true := by
  cases fault
  case expectedMark => exact begins_append _ (begins_ofList _ rfl)
  case illegalCharacter => exact begins_append _ (begins_ofList _ rfl)
  case invalidCharacter => exact begins_append _ (begins_ofList _ rfl)
  case redefinedNamespace => exact begins_append _ (begins_ofList _ rfl)
  case sealedNamespace => exact begins_append _ (begins_ofList _ rfl)
  case declaredTwice => exact begins_append _ (begins_append _ (begins_ofList _ rfl))
  case duplicateName => exact begins_append _ (begins_ofList _ rfl)
  all_goals exact begins_ofList _ rfl

theorem stripEnd_ne_nil {text : Text} (begins : text.head?.any Char.isAlpha = true) :
    stripEnd text ≠ [] := by
  intro isEmpty
  obtain ⟨cut, same, areBlank⟩ := exists_eq_trimEnd_append isBlank text
  rw [show trimEnd isBlank text = [] from isEmpty, List.nil_append] at same
  obtain ⟨c, isHead, isLetter⟩ := (Option.any_eq_true _ _).mp begins
  rw [same] at isHead
  have blank := areBlank c (List.mem_of_mem_head? isHead)
  rw [isBlank_of_isAlpha isLetter] at blank
  contradiction

theorem causeOf_of_ne_nil {cause : Text} (nonempty : cause ≠ []) : causeOf cause = cause := by
  rw [causeOf, if_neg (by simpa using nonempty)]

theorem failureOf_of_ne {text lines : Text} {found : Stop} (source : String)
    (isFault : found.fault ≠ .longInteger) :
    failureOf source text lines found =
      match readReport? text (report lines found) with
      | none => .longInteger
      | some (cause, place) => .misread ⟨String.ofList cause, source, place⟩ := by
  rw [failureOf]
  generalize readReport? text (report lines found) = told
  split
  next isLong => exact absurd isLong isFault
  next => rfl
  next => rfl

/-- What is told of a fault is what stands before the first place in its report, and that
place. -/
theorem decode_of_first {text before line column after : Text} {found : Stop} (source : String)
    (stopped : document (unixLines text) = .error found) (isFault : found.fault ≠ .longInteger)
    (isReport : report (unixLines text) found = before ++ placeNamed line column ++ after)
    (lineDigits : AreDigits line) (columnDigits : AreDigits column)
    (namesNone : ¬ NamesPlace before) :
    decode source text = .error (match (writtenPlace line column).read? with
      | some place => .misread ⟨String.ofList (stripEnd before), source, some place⟩
      | none => .longInteger) := by
  have begins : before.head?.any Char.isAlpha = true := by
    have reportBegins : (report (unixLines text) found).head?.any Char.isAlpha = true := by
      have messageBegins := found.fault.begins_message
      rw [report]
      cases isMessage : found.fault.message.toList with
      | nil => simp [isMessage] at messageBegins
      | cons c rest => simpa [isMessage] using messageBegins
    rw [isReport] at reportBegins
    cases before with
    | nil =>
        obtain ⟨rest, isNamed⟩ := placeNamed_eq_cons line column
        simp [isNamed] at reportBegins
    | cons c before => exact reportBegins
  have isRead : readReport? text (report (unixLines text) found) =
      (writtenPlace line column).read?.map fun place => (stripEnd before, some place) := by
    rw [isReport, readReport?, findPlace?_append namesNone lineDigits columnDigits]
    dsimp only
    rw [causeOf_of_ne_nil (stripEnd_ne_nil begins)]
  rw [decode, stopped]
  dsimp only
  rw [failureOf_of_ne source isFault, isRead]
  cases (writtenPlace line column).read? <;> rfl

/-- A blank after a text names no place. -/
theorem namesPlace_concat_blank_iff {text : Text} :
    NamesPlace (text ++ [' ']) ↔ NamesPlace text := by
  constructor
  · rintro ⟨before, line, column, after, lineDigits, columnDigits, same⟩
    rcases List.eq_nil_or_concat after with rfl | ⟨rest, last, rfl⟩
    · obtain ⟨rest, isNamed⟩ := placeNamed_eq_concat line column
      rw [List.append_nil, isNamed, ← List.append_assoc] at same
      exact absurd (List.append_inj_right' same rfl) (by decide)
    · rw [List.concat_eq_append, ← List.append_assoc] at same
      exact ⟨before, line, column, rest, lineDigits, columnDigits,
        List.append_inj_left' same rfl⟩
  · rintro ⟨before, line, column, after, lineDigits, columnDigits, rfl⟩
    exact ⟨before, line, column, after ++ [' '], lineDigits, columnDigits,
      List.append_assoc _ _ _⟩

/-- What stands before a place is not all of the words around it. -/
theorem stripEnd_ne_of_first {text before line column after : Text}
    (same : text = before ++ placeNamed line column ++ after) :
    stripEnd text ≠ stripEnd before := by
  intro sameWords
  obtain ⟨rest, isNamed⟩ := placeNamed_eq_cons line column
  obtain ⟨cut, isText, areBlank⟩ := exists_eq_trimEnd_append isBlank text
  obtain ⟨blanks, isBefore, -⟩ := exists_eq_trimEnd_append isBlank before
  have sameText : stripEnd text ++ cut = stripEnd text ++ (blanks ++ '(' :: (rest ++ after)) :=
    calc stripEnd text ++ cut = text := isText.symm
      _ = (stripEnd before ++ blanks) ++ '(' :: (rest ++ after) := by
        rw [same, List.append_assoc, isNamed]
        exact congrArg (· ++ _) isBefore
      _ = stripEnd text ++ (blanks ++ '(' :: (rest ++ after)) := by
        rw [sameWords, List.append_assoc]
  have blank := areBlank '(' (by simp [List.append_cancel_left sameText])
  exact absurd blank (by decide)

/-- The place of a fault is told, with the words before it, exactly if the words name no
place themselves.  Else the first place that they name is told, with what is before it. -/
theorem decode_tells_place_iff {text message : Text} {place : Place} {found : Stop}
    (source : String) (stopped : document (unixLines text) = .error found)
    (isFault : found.fault ≠ .longInteger)
    (isReport : report (unixLines text) found = message ++ ' ' :: placeText place) :
    (decode source text =
        .error (.misread ⟨String.ofList (stripEnd message), source, some place⟩) ↔
      ¬ NamesPlace message ∧ Decimal.isWritable place.line = true ∧
        Decimal.isWritable place.column = true) ∧
    ∀ before line column after, AreDigits line → AreDigits column → ¬ NamesPlace before →
      message = before ++ placeNamed line column ++ after →
      decode source text = .error (match (writtenPlace line column).read? with
        | some told => .misread ⟨String.ofList (stripEnd before), source, some told⟩
        | none => .longInteger) := by
  have atFirst : ∀ before line column after, AreDigits line → AreDigits column →
      ¬ NamesPlace before → message = before ++ placeNamed line column ++ after →
      decode source text = .error (match (writtenPlace line column).read? with
        | some told => .misread ⟨String.ofList (stripEnd before), source, some told⟩
        | none => .longInteger) := by
    rintro before line column after lineDigits columnDigits namesNone rfl
    rw [List.append_assoc] at isReport
    exact decode_of_first source stopped isFault isReport lineDigits columnDigits namesNone
  refine ⟨?_, atFirst⟩
  by_cases names : NamesPlace message
  · refine iff_of_false (fun isTold => ?_) fun noneNamed => noneNamed.1 names
    obtain ⟨before, line, column, after, lineDigits, columnDigits, namesNone, same⟩ :=
      names.exists_first
    rw [atFirst before line column after lineDigits columnDigits namesNone same] at isTold
    split at isTold
    · simp only [Except.error.injEq, ReadFailure.misread.injEq, SourceError.mk.injEq] at isTold
      exact stripEnd_ne_of_first same (String.ofList_injective isTold.1).symm
    · simp at isTold
  · have blankEnds : ∀ c ∈ [' '], isBlank c = true := List.forall_mem_singleton.mpr rfl
    have atEnd : report (unixLines text) found = (message ++ [' ']) ++
        placeNamed (padded 1 place.line) (padded 1 place.column) ++ [] := by
      rw [isReport, List.append_nil, List.append_assoc]
      rfl
    rw [decode_of_first source stopped isFault atEnd (areDigits_padded _) (areDigits_padded _)
      (mt namesPlace_concat_blank_iff.mp names), read?_writtenPlace_padded, stripEnd,
      trimEnd_append_of_drop blankEnds]
    rw [and_iff_right names, ← Bool.and_eq_true]
    cases (Decimal.isWritable place.line && Decimal.isWritable place.column) <;> simp [stripEnd]

/-- A document that opens a table again whose key looks like the beginning of a place. -/
def reopenedDocument : Text :=
  Text.ofLines ["[\"(at line 1\"]", "[\"(at line 1\"]"]

/-- The place of the second header is told. -/
theorem decode_tells_place_of_reopenedDocument :
    ∃ found, document (unixLines reopenedDocument) = .error found ∧
      found.fault ≠ .longInteger ∧
      report (unixLines reopenedDocument) found =
        "Cannot declare ('(at line 1',) twice".toList ++ ' ' :: placeText ⟨2, 14⟩ ∧
      decode "a.toml" reopenedDocument = .error (.misread
        ⟨"Cannot declare ('(at line 1',) twice", "a.toml", some ⟨2, 14⟩⟩) := by
  have stopped : document (unixLines reopenedDocument) =
      .error ⟨.declaredTwice ["(at line 1"], "]\n".toList⟩ := by decide +kernel
  have isReport : report (unixLines reopenedDocument)
      ⟨.declaredTwice ["(at line 1"], "]\n".toList⟩ =
        "Cannot declare ('(at line 1',) twice".toList ++ ' ' :: placeText ⟨2, 14⟩ := by
    decide +kernel
  have namesNone : ¬ NamesPlace "Cannot declare ('(at line 1',) twice".toList :=
    findPlace?_eq_none_iff.mp (by decide +kernel)
  have told := (decode_tells_place_iff "a.toml" stopped (by decide) isReport).1.mpr
    ⟨namesNone, (length_padded_le_iff 2).mp (by decide), (length_padded_le_iff 14).mp (by decide)⟩
  exact ⟨_, stopped, by decide, isReport, told⟩

/-- A document that opens a table again whose key looks like a place. -/
def placeKeyDocument : Text :=
  Text.ofLines ["[\"(at line 1, column 2)\"]", "[\"(at line 1, column 2)\"]"]

/-- The place in the key is told, and what is before it. -/
theorem decode_tells_key_of_placeKeyDocument :
    ∃ found, document (unixLines placeKeyDocument) = .error found ∧
      found.fault ≠ .longInteger ∧
      report (unixLines placeKeyDocument) found =
        "Cannot declare ('(at line 1, column 2)',) twice".toList ++ ' ' :: placeText ⟨2, 25⟩ ∧
      decode "a.toml" placeKeyDocument =
        .error (.misread ⟨"Cannot declare ('", "a.toml", some ⟨1, 2⟩⟩) :=
  ⟨⟨.declaredTwice ["(at line 1, column 2)"], "]\n".toList⟩, by decide +kernel, by decide,
    by decide +kernel, by decide +kernel⟩

end Toml

end ApiWorkshop
