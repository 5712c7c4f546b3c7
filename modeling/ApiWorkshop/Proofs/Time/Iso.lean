import ApiWorkshop.Proofs.Number.Digits
import ApiWorkshop.Proofs.Text.Classes
import ApiWorkshop.Time.Iso

/-!
# Reading written dates and date-times

Every number in the text of a date, a clock time or an offset has a fixed width, so it is
read where it was written, and the whole text gives the date-time back.  The one thing that
is lost is an offset of less than a second, which is read as no distance at all.
-/

namespace ApiWorkshop

namespace Iso

open Text (padded isDigit length_padded)

/-! ## Numbers of a fixed width -/

theorem takeNumber?_padded {width number : Nat} (isPositive : 0 < width)
    (fits : number < 10 ^ width) (rest : Text) :
    takeNumber? width (padded width number ++ rest) = some (number, rest) := by
  have isLong := length_padded isPositive fits
  have allDigits : (padded width number).all isDigit = true :=
    List.all_eq_true.mpr fun c => Text.isDigit_of_mem_padded
  rw [takeNumber?, List.take_left' isLong, List.drop_left' isLong]
  rw [if_pos ⟨isLong, allDigits⟩, Text.decimal_padded]

theorem takeNumber?_padded_self {width number : Nat} (isPositive : 0 < width)
    (fits : number < 10 ^ width) : takeNumber? width (padded width number) = some (number, []) := by
  have read := takeNumber?_padded isPositive fits []
  rwa [List.append_nil] at read

theorem isDigit_of_head?_padded (width number : Nat) (rest : Text) :
    ∀ c ∈ (padded width number ++ rest).head?, isDigit c = true :=
  Text.forall_head?_append_of_ne_nil (Text.padded_ne_nil width number)
    (fun _ => Text.isDigit_of_mem_padded) rest

theorem padded_append_ne_cons {c : Char} (noDigit : isDigit c = false) (width number : Nat)
    (rest after : Text) : padded width number ++ rest ≠ c :: after := by
  intro same
  have isDigit := isDigit_of_head?_padded width number rest c (by rw [same]; rfl)
  exact absurd (noDigit.symm.trans isDigit) Bool.false_ne_true

/-! ## Dates -/

theorem text_date (date : Date) :
    date.text = padded 4 date.year ++ '-' :: (padded 2 date.month ++ '-' :: padded 2 date.day) := by
  simp [Date.text]

theorem date_bounds (date : Date) :
    date.year < 10 ^ 4 ∧ date.month < 10 ^ 2 ∧ date.day < 10 ^ 2 := by
  have valid := date.valid
  simp only [isDate, Bool.and_eq_true, decide_eq_true_eq] at valid
  have isShort : daysInMonth date.year date.month ≤ 31 := by
    unfold daysInMonth
    split
    · split <;> decide
    · split <;> decide
  omega

theorem length_text_date (date : Date) : date.text.length = 10 := by
  obtain ⟨year, month, day⟩ := date_bounds date
  simp [text_date, length_padded _ year, length_padded _ month, length_padded _ day]

theorem dateLength_text (date : Date) (rest : Text) : dateLength (date.text ++ rest) = 10 := by
  obtain ⟨year, month, day⟩ := date_bounds date
  have isLong : (date.text ++ rest).length ≠ 7 := by
    rw [List.length_append, length_text_date]
    omega
  have marks : (date.text ++ rest).drop 4 =
      '-' :: (padded 2 date.month ++ ('-' :: padded 2 date.day ++ rest)) := by
    rw [text_date, List.append_assoc, List.drop_left' (length_padded (by decide) year),
      List.cons_append, List.append_assoc]
  rw [dateLength, if_neg isLong, marks]
  split
  next same => exact absurd (List.cons.inj same).2 (padded_append_ne_cons (by decide) _ _ _ _)
  next => rfl
  next same => exact absurd (List.cons.inj same).1 (by decide)
  next noHyphen _ => exact absurd rfl (noHyphen _)

theorem date?_text (date : Date) : date? date.text = some date := by
  obtain ⟨year, month, day⟩ := date_bounds date
  have isMade : Date.make? date.year date.month date.day = some date := dif_pos date.valid
  have dayRead := takeNumber?_padded_self (by decide) day
  rw [text_date, date?, takeNumber?_padded (by decide) year]
  simp only [Option.bind_eq_bind, Option.bind_some, List.head?_cons, decide_true, if_true,
    List.drop_one, List.tail_cons]
  split
  next same => exact absurd same (padded_append_ne_cons (by decide) _ _ _ _)
  next =>
    rw [takeNumber?_padded (by decide) month]
    simp only [Option.bind_some, takeHyphen?, if_true, Text.after?, dayRead, List.isEmpty_nil,
      isMade]

/-! ## Clock times and offsets -/

variable {colons : Bool} {parts : List Nat} {number : Nat}

/-- The reading of some parts with a fraction of a second. -/
def readingOf (parts : List Nat) (microsecond : Nat) : Reading :=
  ⟨parts.getD 0 0, parts.getD 1 0, parts.getD 2 0, microsecond, false⟩

/-- A fraction of a second as it is written; there is none without microseconds. -/
def fractionText (microsecond : Nat) : Text :=
  if microsecond = 0 then [] else '.' :: padded 6 microsecond

theorem fraction?_padded {microsecond : Nat} (fits : microsecond < 10 ^ 6) :
    fraction? (padded 6 microsecond) = some (microsecond, false) := by
  rw [fraction?, length_padded (by decide) fits]
  simp [takeNumber?_padded_self _ fits, hasMore]

theorem reading?_last (fits : number < 10 ^ 2) (missing : Nat) :
    reading? colons parts (missing + 1) (padded 2 number) =
      some (readingOf (parts ++ [number]) 0) := by
  rw [reading?, takeNumber?_padded_self (by decide) fits]
  rfl

theorem reading?_colon (fits : number < 10 ^ 2) (known : parts = [] ∨ colons = true)
    (missing : Nat) {rest : Text} (nonempty : rest ≠ []) :
    reading? colons parts (missing + 1) (padded 2 number ++ ':' :: rest) =
      reading? true (parts ++ [number]) missing rest := by
  obtain ⟨c, rest, rfl⟩ := List.exists_cons_of_ne_nil nonempty
  rw [reading?, takeNumber?_padded (by decide) fits]
  rcases known with rfl | rfl
  · simp
  · simp

theorem reading?_point (fits : number < 10 ^ 2) (missing : Nat) {microsecond : Nat}
    (fractionFits : microsecond < 10 ^ 6) :
    reading? colons parts (missing + 1) (padded 2 number ++ '.' :: padded 6 microsecond) =
      some (readingOf (parts ++ [number]) microsecond) := by
  have read := fraction?_padded fractionFits
  obtain ⟨c, rest, isPadded⟩ := List.exists_cons_of_ne_nil (Text.padded_ne_nil 6 microsecond)
  rw [isPadded] at read ⊢
  rw [reading?, takeNumber?_padded (by decide) fits]
  simp [reading?, read, readingOf]

theorem reading?_second (fits : number < 10 ^ 2) (missing : Nat) {microsecond : Nat}
    (fractionFits : microsecond < 10 ^ 6) :
    reading? colons parts (missing + 1) (padded 2 number ++ fractionText microsecond) =
      some (readingOf (parts ++ [number]) microsecond) := by
  rw [fractionText]
  split
  next isZero =>
    rw [List.append_nil, isZero]
    exact reading?_last fits missing
  next => exact reading?_point fits missing fractionFits

/-- The text of a clock time, of which an offset shows less. -/
def timeText (hour minute second microsecond : Nat) : Text :=
  padded 2 hour ++ ':' :: (padded 2 minute ++ ':' :: (padded 2 second ++ fractionText microsecond))

theorem reading?_timeText {hour minute second microsecond : Nat} (hourFits : hour < 10 ^ 2)
    (minuteFits : minute < 10 ^ 2) (secondFits : second < 10 ^ 2)
    (fractionFits : microsecond < 10 ^ 6) :
    reading? false [] 3 (timeText hour minute second microsecond) =
      some ⟨hour, minute, second, microsecond, false⟩ := by
  rw [timeText, reading?_colon hourFits (.inl rfl) 2 (by simp [Text.padded_ne_nil]),
    reading?_colon minuteFits (.inr rfl) 1 (by simp [Text.padded_ne_nil]),
    reading?_second secondFits 0 fractionFits]
  rfl

theorem reading?_hourAndMinute {hour minute : Nat} (hourFits : hour < 10 ^ 2)
    (minuteFits : minute < 10 ^ 2) :
    reading? false [] 3 (padded 2 hour ++ ':' :: padded 2 minute) =
      some ⟨hour, minute, 0, 0, false⟩ := by
  rw [reading?_colon hourFits (.inl rfl) 2 (Text.padded_ne_nil 2 minute), reading?_last minuteFits]
  rfl

theorem text_clock (clock : Clock) :
    clock.text = timeText clock.hour clock.minute clock.second clock.microsecond := by
  simp [Clock.text, timeText, fractionText]

/-- The sign of an offset. -/
def signOf (offset : Offset) : Char :=
  if offset.microseconds < 0 then '-' else '+'

/-- The text of an offset after its sign. -/
def sizeText (size : Nat) : Text :=
  if size % 60000000 = 0 then
    padded 2 (size / 1000000 / 3600) ++ ':' :: padded 2 (size / 1000000 / 60 % 60)
  else
    timeText (size / 1000000 / 3600) (size / 1000000 / 60 % 60) (size / 1000000 % 60)
      (size % 1000000)

theorem text_offset (offset : Offset) :
    offset.text = signOf offset :: sizeText offset.microseconds.natAbs := by
  rw [Offset.text, sizeText]
  by_cases isWhole : offset.microseconds.natAbs % 60000000 = 0
  · simp [isWhole, signOf]
  · simp [isWhole, signOf, timeText, fractionText]

theorem reading?_sizeText {size : Nat} (valid : size < 86400000000) :
    reading? false [] 3 (sizeText size) =
      some ⟨size / 1000000 / 3600, size / 1000000 / 60 % 60, size / 1000000 % 60,
        size % 1000000, false⟩ := by
  have hourFits : size / 1000000 / 3600 < 10 ^ 2 := by omega
  have minuteFits : size / 1000000 / 60 % 60 < 10 ^ 2 := by omega
  have secondFits : size / 1000000 % 60 < 10 ^ 2 := by omega
  have fractionFits : size % 1000000 < 10 ^ 6 := by omega
  rw [sizeText]
  split
  next isWhole =>
    have noSecond : size / 1000000 % 60 = 0 := by omega
    have noFraction : size % 1000000 = 0 := by omega
    rw [reading?_hourAndMinute hourFits minuteFits, noSecond, noFraction]
  next => exact reading?_timeText hourFits minuteFits secondFits fractionFits

/-- An offset as it is read back: less than a second is no distance at all. -/
def readOffset (offset : Offset) : Offset :=
  if offset.microseconds.natAbs < 1000000 then .zero else offset

theorem offset?_text (offset : Offset) : offset? offset.text = some (readOffset offset) := by
  have valid := offset.valid
  rw [microsecondsPerDay] at valid
  have noZulu : signOf offset ≠ 'Z' := by
    rw [signOf]
    split <;> decide
  have isSize : (if signOf offset = '-' then -(offset.microseconds.natAbs : Int)
      else offset.microseconds.natAbs) = offset.microseconds := by
    rw [signOf]
    by_cases negative : offset.microseconds < 0
    · rw [if_pos negative, if_pos rfl]
      omega
    · rw [if_neg negative, if_neg (by decide)]
      omega
  have isMade : Offset.make? offset.microseconds = some offset := dif_pos offset.valid
  have seconds (size : Nat) : (size / 1000000 / 3600 * 60 + size / 1000000 / 60 % 60) * 60 +
      size / 1000000 % 60 = size / 1000000 := by omega
  have isShort_iff (size : Nat) : size / 1000000 = 0 ↔ size < 1000000 := by omega
  rw [text_offset, offset?]
  · simp only [reading?_sizeText valid, Option.bind_eq_bind, Option.bind_some, seconds,
      Nat.div_add_mod', isSize, isMade, isShort_iff, readOffset]
    simp only [Bool.false_eq_true, if_false]
    split <;> rfl
  · exact noZulu

/-! ## The characters of a text -/

section Characters

variable {Holds : Char → Prop} (digits : ∀ c, isDigit c = true → Holds c)
include digits

theorem forall_mem_padded (width number : Nat) : ∀ c ∈ padded width number, Holds c :=
  fun c member => digits c (Text.isDigit_of_mem_padded member)

theorem forall_mem_timeText (colon : Holds ':') (point : Holds '.')
    (hour minute second microsecond : Nat) :
    ∀ c ∈ timeText hour minute second microsecond, Holds c := by
  have areDigits := forall_mem_padded digits
  have fraction : ∀ c ∈ fractionText microsecond, Holds c := by
    rw [fractionText]
    split
    · exact nofun
    · exact List.forall_mem_cons.mpr ⟨point, areDigits 6 microsecond⟩
  simp only [timeText, List.forall_mem_append, List.forall_mem_cons]
  exact ⟨areDigits 2 hour, colon, areDigits 2 minute, colon, areDigits 2 second, fraction⟩

theorem forall_mem_text_offset (colon : Holds ':') (point : Holds '.') (plus : Holds '+')
    (hyphen : Holds '-') (offset : Offset) : ∀ c ∈ offset.text, Holds c := by
  rw [text_offset, List.forall_mem_cons, signOf, sizeText]
  constructor
  · split
    · exact hyphen
    · exact plus
  · split
    · simp only [List.forall_mem_append, List.forall_mem_cons]
      exact ⟨forall_mem_padded digits 2 _, colon, forall_mem_padded digits 2 _⟩
    · exact forall_mem_timeText digits colon point _ _ _ _

theorem forall_mem_text_date (hyphen : Holds '-') (date : Date) : ∀ c ∈ date.text, Holds c := by
  have areDigits := forall_mem_padded digits
  simp only [text_date, List.forall_mem_append, List.forall_mem_cons]
  exact ⟨areDigits 4 date.year, hyphen, areDigits 2 date.month, hyphen, areDigits 2 date.day⟩

theorem forall_mem_text (colon : Holds ':') (point : Holds '.') (plus : Holds '+')
    (hyphen : Holds '-') (letter : Holds 'T') (value : DateTime) : ∀ c ∈ value.text, Holds c := by
  have inDate := forall_mem_text_date digits hyphen value.date
  have inClock : ∀ c ∈ value.clock.text, Holds c := by
    rw [text_clock]
    exact forall_mem_timeText digits colon point _ _ _ _
  have inOffset : ∀ c ∈ offsetText value.offset, Holds c := by
    cases value.offset with
    | none => exact nofun
    | some offset => exact forall_mem_text_offset digits colon point plus hyphen offset
  have inLetter : ∀ c ∈ "T".toList, Holds c := List.forall_mem_singleton.mpr letter
  simp only [DateTime.text, List.forall_mem_append]
  exact ⟨⟨⟨inDate, inLetter⟩, inClock⟩, inOffset⟩

end Characters

/-! ## Date-times -/

theorem startsOffset_of_isDigit (c : Char) (isDigit : isDigit c = true) :
    (!startsOffset c) = true := by
  have different (mark : Char) (noDigit : Text.isDigit mark = false) : c ≠ mark := by
    rintro rfl
    exact absurd (noDigit.symm.trans isDigit) Bool.false_ne_true
  simp [startsOffset, different '+' rfl, different '-' rfl, different 'Z' rfl]

theorem clock?_text (clock : Clock) (offset : Option Offset) :
    clock? (clock.text ++ offsetText offset) = some (clock, offset.map readOffset) := by
  obtain ⟨hourFits, minuteFits, secondFits, fractionFits⟩ := clock.valid
  have isMade : Clock.make? clock.hour clock.minute clock.second clock.microsecond = some clock :=
    dif_pos clock.valid
  have noZone : ∀ c ∈ clock.text, (!startsOffset c) = true := by
    rw [text_clock]
    exact forall_mem_timeText startsOffset_of_isDigit rfl rfl _ _ _ _
  have zone : ∀ c ∈ (offsetText offset).head?, (!startsOffset c) = false := by
    cases offset with
    | none => exact nofun
    | some offset =>
        intro c isHead
        rw [offsetText, text_offset] at isHead
        obtain rfl : signOf offset = c := Option.some.inj isHead
        rw [signOf]
        split <;> rfl
  obtain ⟨isClock, isZone⟩ := Text.span_append noZone zone
  have read : reading? false [] 3 clock.text =
      some ⟨clock.hour, clock.minute, clock.second, clock.microsecond, false⟩ := by
    rw [text_clock]
    apply reading?_timeText <;> omega
  rw [clock?, isClock, isZone, read]
  simp only [Option.bind_eq_bind, Option.bind_some, isMade]
  cases offset with
  | none => rfl
  | some offset =>
      have someZone : (offsetText (some offset)).isEmpty = false := by
        rw [offsetText, text_offset]
        rfl
      rw [someZone, offsetText, offset?_text]
      rfl

theorem dateTime?_text_date (date : Date) :
    dateTime? date.text = some ⟨date, .midnight, none⟩ := by
  have isLong := length_text_date date
  have length := dateLength_text date []
  rw [List.append_nil] at length
  rw [dateTime?, if_neg (by omega)]
  simp only [length, List.take_of_length_le (Nat.le_of_eq isLong),
    List.drop_of_length_le (Nat.le_of_eq isLong), date?_text, Option.bind_eq_bind,
    Option.bind_some]

theorem dateTime?_text (value : DateTime) :
    dateTime? value.text = some ⟨value.date, value.clock, value.offset.map readOffset⟩ := by
  have isLong := length_text_date value.date
  have split : value.text =
      value.date.text ++ 'T' :: (value.clock.text ++ offsetText value.offset) := by
    simp [DateTime.text]
  rw [split, dateTime?, if_neg (by rw [List.length_append]; omega)]
  simp only [dateLength_text, List.take_left' isLong, List.drop_left' isLong, date?_text,
    clock?_text, Option.bind_eq_bind, Option.bind_some]

theorem readOffset_eq_self_iff (offset : Offset) :
    readOffset offset = offset ↔
      offset.microseconds = 0 ∨ 1000000 ≤ offset.microseconds.natAbs := by
  obtain ⟨microseconds, valid⟩ := offset
  rw [readOffset]
  split
  next isShort =>
    rw [Offset.zero, Offset.mk.injEq]
    dsimp only at isShort ⊢
    omega
  next isLong => exact iff_of_true rfl (.inr (Nat.le_of_not_lt isLong))

/-- A date-time is read back unless its offset is less than a second. -/
theorem dateTime?_text_eq_self_iff (value : DateTime) :
    dateTime? value.text = some value ↔ ∀ offset ∈ value.offset,
      offset.microseconds = 0 ∨ 1000000 ≤ offset.microseconds.natAbs := by
  obtain ⟨date, clock, offset⟩ := value
  rw [dateTime?_text, Option.some.injEq, DateTime.mk.injEq, and_iff_right rfl, and_iff_right rfl]
  cases offset with
  | none => simp
  | some offset => simp [readOffset_eq_self_iff]

end Iso

end ApiWorkshop
