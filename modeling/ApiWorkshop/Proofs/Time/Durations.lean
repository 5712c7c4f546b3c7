import Mathlib.Tactic.SplitIfs
import ApiWorkshop.Proofs.Number.Rounded
import ApiWorkshop.Proofs.Text.Classes
import ApiWorkshop.Proofs.Text.Parts
import ApiWorkshop.Time.Duration

/-!
# The grammar of durations

A duration is a nonempty sequence of amounts with units.  An amount has digits of any
script and may have a fraction, a unit is a maximal run of ASCII letters out of the table
of units, and blanks may stand before an amount and before a unit.  Exactly these texts
are read, each in only one way: no digit is a blank, a point or a letter, so every part
of a token ends where the next one begins.
-/

namespace ApiWorkshop

namespace Duration

/-! ## Spellings of a token -/

/-- A fraction with its point; without digits there is no point. -/
def pointed : Text → Text
  | [] => []
  | digits => '.' :: digits

/-- A token as it is written. -/
structure Spelling where
  before : Text
  whole : Text
  fraction : Text
  between : Text
  unit : Text
  beforeBlank : ∀ c ∈ before, Text.isBlank c = true
  wholeNonempty : whole ≠ []
  wholeDigits : ∀ c ∈ whole, Text.isDecimalDigit c = true
  fractionDigits : ∀ c ∈ fraction, Text.isDecimalDigit c = true
  betweenBlank : ∀ c ∈ between, Text.isBlank c = true
  unitNonempty : unit ≠ []
  unitLetters : ∀ c ∈ unit, c.isAlpha = true

namespace Spelling

def text (spelling : Spelling) : Text :=
  spelling.before ++ (spelling.whole ++ (pointed spelling.fraction ++
    (spelling.between ++ spelling.unit)))

def token (spelling : Spelling) : Token where
  digits := spelling.whole.filterMap Text.decimalDigit?
  fraction := spelling.fraction.filterMap Text.decimalDigit?
  unit := String.ofList spelling.unit

end Spelling

/-! ## The digits and the fraction of an amount -/

theorem filterMap_decimalDigit?_ne_nil {digits : Text} (nonempty : digits ≠ [])
    (areDigits : ∀ c ∈ digits, Text.isDecimalDigit c = true) :
    digits.filterMap Text.decimalDigit? ≠ [] := by
  cases digits with
  | nil => exact absurd rfl nonempty
  | cons c digits =>
      obtain ⟨digit, isSome⟩ := Option.isSome_iff_exists.mp (areDigits c List.mem_cons_self)
      rw [List.filterMap_cons_some isSome]
      exact List.cons_ne_nil digit _

theorem takeDigits_append {digits rest : Text}
    (areDigits : ∀ c ∈ digits, Text.isDecimalDigit c = true)
    (ends : ∀ c ∈ rest.head?, Text.isDecimalDigit c = false) :
    takeDigits (digits ++ rest) = (digits.filterMap Text.decimalDigit?, rest) := by
  obtain ⟨isRun, isRest⟩ := Text.span_append areDigits ends
  rw [takeDigits, isRun, isRest]

theorem exists_of_takeDigits (text : Text) :
    ∃ digits rest, takeDigits text = (digits.filterMap Text.decimalDigit?, rest) ∧
      text = digits ++ rest ∧ ∀ c ∈ digits, Text.isDecimalDigit c = true := by
  obtain ⟨digits, rest, isRun, isRest, same, areDigits, -⟩ :=
    Text.exists_span Text.isDecimalDigit text
  refine ⟨digits, rest, ?_, same, areDigits⟩
  rw [takeDigits, isRun, isRest]

theorem takeFraction_point {after fraction rest : Text} (nonempty : fraction ≠ [])
    (areDigits : ∀ c ∈ fraction, Text.isDecimalDigit c = true)
    (taken : takeDigits after = (fraction.filterMap Text.decimalDigit?, rest)) :
    takeFraction ('.' :: after) = (fraction.filterMap Text.decimalDigit?, rest) := by
  rw [takeFraction, taken]
  split
  next noDigit =>
    exact absurd (Prod.mk.inj noDigit).1 (filterMap_decimalDigit?_ne_nil nonempty areDigits)
  next same => rw [same]

theorem takeFraction_append {fraction rest : Text}
    (areDigits : ∀ c ∈ fraction, Text.isDecimalDigit c = true)
    (ends : ∀ c ∈ rest.head?, Text.isDecimalDigit c = false) (noPoint : '.' ∉ rest.head?) :
    takeFraction (pointed fraction ++ rest) = (fraction.filterMap Text.decimalDigit?, rest) := by
  cases fraction with
  | nil =>
      rw [pointed, List.nil_append, takeFraction.eq_def]
      split
      · exact absurd rfl noPoint
      · rfl
  | cons c digits =>
      exact takeFraction_point (List.cons_ne_nil c digits) areDigits
        (takeDigits_append areDigits ends)

theorem exists_of_takeFraction (text : Text) :
    ∃ fraction rest, takeFraction text = (fraction.filterMap Text.decimalDigit?, rest) ∧
      text = pointed fraction ++ rest ∧ ∀ c ∈ fraction, Text.isDecimalDigit c = true := by
  by_cases isFraction : ∃ c digits rest, text = '.' :: (c :: digits ++ rest) ∧
      takeDigits (c :: digits ++ rest) = ((c :: digits).filterMap Text.decimalDigit?, rest) ∧
      ∀ c' ∈ c :: digits, Text.isDecimalDigit c' = true
  · obtain ⟨c, digits, rest, rfl, taken, areDigits⟩ := isFraction
    exact ⟨c :: digits, rest, takeFraction_point (List.cons_ne_nil c digits) areDigits taken, rfl,
      areDigits⟩
  · refine ⟨[], text, ?_, rfl, fun c member => nomatch member⟩
    rw [takeFraction.eq_def]
    split
    next after =>
      obtain ⟨digits, rest, taken, same, areDigits⟩ := exists_of_takeDigits after
      cases digits with
      | nil => rw [taken]; rfl
      | cons c digits =>
          rw [same] at taken
          exact absurd ⟨c, digits, rest, congrArg _ same, taken, areDigits⟩ isFraction
    next => rfl

/-! ## A token at the start of a text -/

/-- No unit and no blank before it continues a number. -/
theorem Spelling.ends_number (spelling : Spelling) (rest : Text) :
    ∀ c ∈ (spelling.between ++ (spelling.unit ++ rest)).head?,
      Text.isDecimalDigit c = false ∧ c ≠ '.' := by
  apply Text.forall_head?_append
  · intro c member
    have isBlank := spelling.betweenBlank c member
    refine ⟨Text.isDecimalDigit_of_isBlank isBlank, ?_⟩
    rintro rfl
    exact absurd isBlank (by decide)
  · refine Text.forall_head?_append_of_ne_nil spelling.unitNonempty (fun c member => ?_) rest
    have isLetter := spelling.unitLetters c member
    refine ⟨Text.isDecimalDigit_of_isAlpha isLetter, ?_⟩
    rintro rfl
    exact absurd isLetter (by decide)

theorem Spelling.ends_whole (spelling : Spelling) (rest : Text) :
    ∀ c ∈ (pointed spelling.fraction ++ (spelling.between ++ (spelling.unit ++ rest))).head?,
      Text.isDecimalDigit c = false := by
  cases spelling.fraction with
  | nil =>
      intro c isHead
      exact (spelling.ends_number rest c isHead).1
  | cons first digits =>
      intro c isHead
      obtain rfl : '.' = c := Option.some.inj isHead
      decide

theorem takeToken?_append (spelling : Spelling) {rest : Text}
    (maximal : ∀ c ∈ rest.head?, c.isAlpha = false) :
    takeToken? (spelling.text ++ rest) = some (spelling.token, rest) := by
  have split : spelling.text ++ rest = spelling.before ++ (spelling.whole ++
      (pointed spelling.fraction ++ (spelling.between ++ (spelling.unit ++ rest)))) := by
    simp only [Spelling.text, List.append_assoc]
  have noBlank := Text.forall_head?_append_of_ne_nil spelling.wholeNonempty
    (fun c member => Text.isBlank_of_isDecimalDigit (spelling.wholeDigits c member))
    (pointed spelling.fraction ++ (spelling.between ++ (spelling.unit ++ rest)))
  have noBlankInUnit := Text.forall_head?_append_of_ne_nil spelling.unitNonempty
    (fun c member => Text.isBlank_of_isAlpha (spelling.unitLetters c member)) rest
  have noDigit (c) (isHead) := (spelling.ends_number rest c isHead).1
  have noPoint : '.' ∉ (spelling.between ++ (spelling.unit ++ rest)).head? :=
    fun isHead => (spelling.ends_number rest '.' isHead).2 rfl
  have someDigit := filterMap_decimalDigit?_ne_nil spelling.wholeNonempty spelling.wholeDigits
  obtain ⟨isUnit, isRest⟩ := Text.span_append spelling.unitLetters maximal
  unfold takeToken? Text.stripStart
  rw [split, (Text.span_append spelling.beforeBlank noBlank).2]
  simp only [takeDigits_append spelling.wholeDigits (spelling.ends_whole rest),
    takeFraction_append spelling.fractionDigits noDigit noPoint,
    (Text.span_append spelling.betweenBlank noBlankInUnit).2, isUnit, isRest,
    List.isEmpty_iff, someDigit, spelling.unitNonempty, Bool.or_eq_true, or_self, if_false]
  rfl

theorem exists_spelling_of_takeToken? {text rest : Text} {token : Token}
    (taken : takeToken? text = some (token, rest)) :
    ∃ spelling : Spelling, spelling.token = token ∧ text = spelling.text ++ rest ∧
      ∀ c ∈ rest.head?, c.isAlpha = false := by
  obtain ⟨before, afterBefore, -, isAfterBefore, rfl, beforeBlank, -⟩ :=
    Text.exists_span Text.isBlank text
  obtain ⟨whole, afterWhole, takenWhole, rfl, wholeDigits⟩ := exists_of_takeDigits afterBefore
  obtain ⟨fraction, afterFraction, takenFraction, rfl, fractionDigits⟩ :=
    exists_of_takeFraction afterWhole
  obtain ⟨between, afterBetween, -, isAfterBetween, rfl, betweenBlank, -⟩ :=
    Text.exists_span Text.isBlank afterFraction
  obtain ⟨unit, afterUnit, isUnit, isAfterUnit, rfl, unitLetters, maximal⟩ :=
    Text.exists_span Char.isAlpha afterBetween
  unfold takeToken? Text.stripStart at taken
  simp only [isAfterBefore, takenWhole, takenFraction, isAfterBetween, isUnit,
    isAfterUnit] at taken
  split at taken
  next => exact absurd taken nofun
  next nonempty =>
    obtain ⟨rfl, rfl⟩ := Prod.mk.inj (Option.some.inj taken)
    rw [Bool.or_eq_true, not_or, List.isEmpty_iff, List.isEmpty_iff] at nonempty
    have wholeNonempty : whole ≠ [] := fun isEmpty => nonempty.1 (congrArg _ isEmpty)
    refine ⟨⟨before, whole, fraction, between, unit, beforeBlank, wholeNonempty, wholeDigits,
      fractionDigits, betweenBlank, nonempty.2, unitLetters⟩, rfl, ?_, maximal⟩
    simp only [Spelling.text, List.append_assoc]

theorem Spelling.text_ne_nil (spelling : Spelling) : spelling.text ≠ [] := by
  simp [Spelling.text, spelling.wholeNonempty]

/-! ## Texts of tokens -/

/-- A text as a sequence of tokens, each with a unit of the table that goes on as far as
letters stand there. -/
inductive Writes : List Spelling → Text → Prop where
  | nil : Writes [] []
  | cons {spelling : Spelling} {spellings : List Spelling} {rest : Text}
      (known : (unitSeconds? spelling.token.unit).isSome = true)
      (maximal : ∀ c ∈ rest.head?, c.isAlpha = false) (remaining : Writes spellings rest) :
      Writes (spelling :: spellings) (spelling.text ++ rest)

theorem Writes.eq_nil_iff {spellings : List Spelling} {text : Text}
    (writes : Writes spellings text) : text = [] ↔ spellings = [] := by
  cases writes with
  | nil => exact iff_of_true rfl rfl
  | @cons spelling =>
      exact iff_of_false (List.append_ne_nil_of_left_ne_nil spelling.text_ne_nil _)
        (List.cons_ne_nil _ _)

/-- The seconds that a token stands for. -/
def Spelling.seconds (spelling : Spelling) : Binary64 :=
  spelling.token.amount.mul ((unitSeconds? spelling.token.unit).getD Binary64.zero)

/-- A sum of seconds with those of further tokens added. -/
def sumOf (total : Binary64) (spellings : List Spelling) : Binary64 :=
  spellings.foldl (fun total spelling => total.add spelling.seconds) total

variable {whole : String} {text : Text}

theorem sumTokens_nil (steps : Nat) (total : Binary64) :
    sumTokens whole steps total [] = .ok total := by
  rw [sumTokens.eq_def]

theorem sumTokens_succ (nonempty : text ≠ []) (steps : Nat) (total : Binary64) :
    sumTokens whole (steps + 1) total text =
      match takeToken? text with
      | none => .error (.malformed whole)
      | some (token, rest) =>
          match unitSeconds? token.unit with
          | none => .error (.unknownUnit token.unit whole)
          | some seconds => sumTokens whole steps (total.add (token.amount.mul seconds)) rest := by
  obtain ⟨c, rest, rfl⟩ := List.exists_cons_of_ne_nil nonempty
  rfl

theorem sumTokens_of_writes {spellings : List Spelling} (writes : Writes spellings text)
    {steps : Nat} (enough : text.length ≤ steps) (total : Binary64) :
    sumTokens whole steps total text = .ok (sumOf total spellings) := by
  induction writes generalizing steps total with
  | nil => exact sumTokens_nil steps total
  | @cons spelling spellings rest known maximal remaining ih =>
      obtain ⟨seconds, isSeconds⟩ := Option.isSome_iff_exists.mp known
      have someText : 0 < spelling.text.length := List.length_pos_iff.mpr spelling.text_ne_nil
      have nonempty : spelling.text ++ rest ≠ [] :=
        List.append_ne_nil_of_left_ne_nil spelling.text_ne_nil rest
      rw [List.length_append] at enough
      obtain ⟨steps, rfl⟩ : ∃ fewer, steps = fewer + 1 := ⟨steps - 1, by omega⟩
      have enoughForRest : rest.length ≤ steps := by omega
      rw [sumTokens_succ nonempty, takeToken?_append spelling maximal]
      simp only [isSeconds]
      rw [ih enoughForRest, sumOf, sumOf, List.foldl_cons, Spelling.seconds, isSeconds]
      rfl

theorem length_lt_of_takeToken? {rest : Text} {token : Token}
    (taken : takeToken? text = some (token, rest)) : rest.length < text.length := by
  obtain ⟨spelling, -, rfl, -⟩ := exists_spelling_of_takeToken? taken
  have someText : 0 < spelling.text.length := List.length_pos_iff.mpr spelling.text_ne_nil
  rw [List.length_append]
  omega

/-- More steps than there are characters change nothing. -/
theorem sumTokens_of_enough {steps fewer : Nat} (enough : text.length ≤ steps)
    (enoughOfFewer : text.length ≤ fewer) (total : Binary64) :
    sumTokens whole steps total text = sumTokens whole fewer total text := by
  induction steps generalizing fewer total text with
  | zero =>
      obtain rfl : text = [] := List.length_eq_zero_iff.mp (Nat.le_zero.mp enough)
      rw [sumTokens_nil, sumTokens_nil]
  | succ steps ih =>
      by_cases nonempty : text = []
      · rw [nonempty, sumTokens_nil, sumTokens_nil]
      · have someText : 0 < text.length := List.length_pos_iff.mpr nonempty
        obtain ⟨fewer, rfl⟩ : ∃ one, fewer = one + 1 := ⟨fewer - 1, by omega⟩
        rw [sumTokens_succ nonempty, sumTokens_succ nonempty]
        split
        next => rfl
        next token rest taken =>
          have shorter := length_lt_of_takeToken? taken
          split
          next => rfl
          next => apply ih <;> omega

theorem exists_writes_of_sumTokens {steps : Nat} {total sum : Binary64}
    (summed : sumTokens whole steps total text = .ok sum) :
    ∃ spellings, Writes spellings text := by
  induction steps generalizing total text with
  | zero =>
      cases text with
      | nil => exact ⟨[], .nil⟩
      | cons c text => exact absurd summed nofun
  | succ steps ih =>
      by_cases nonempty : text = []
      · exact ⟨[], nonempty ▸ .nil⟩
      · rw [sumTokens_succ nonempty] at summed
        split at summed
        next => exact absurd summed nofun
        next token rest taken =>
          split at summed
          next => exact absurd summed nofun
          next seconds isSeconds =>
            obtain ⟨spelling, rfl, rfl, maximal⟩ := exists_spelling_of_takeToken? taken
            obtain ⟨spellings, remaining⟩ := ih summed
            exact ⟨spelling :: spellings, .cons (by rw [isSeconds]; rfl) maximal remaining⟩

theorem sumTokens_ne_tooLong (steps : Nat) (total : Binary64) (text : Text) :
    sumTokens whole steps total text ≠ .error .tooLong := by
  induction steps generalizing total text with
  | zero => cases text <;> exact nofun
  | succ steps ih =>
      by_cases nonempty : text = []
      · rw [nonempty, sumTokens_nil]
        exact nofun
      · rw [sumTokens_succ nonempty]
        split
        next => exact nofun
        next =>
          split
          next => exact nofun
          next => apply ih

/-! ## Sums of amounts -/

theorem isPositive_of_unitSeconds? {unit : String} {seconds : Binary64}
    (isSeconds : unitSeconds? unit = some seconds) : seconds.isPositive = true := by
  unfold unitSeconds? at isSeconds
  split_ifs at isSeconds
  all_goals
    rw [← Option.some.inj isSeconds]
    decide +kernel

theorem isAmount_seconds {spelling : Spelling}
    (known : (unitSeconds? spelling.token.unit).isSome = true) : spelling.seconds.IsAmount := by
  obtain ⟨seconds, isSeconds⟩ := Option.isSome_iff_exists.mp known
  rw [Spelling.seconds, isSeconds]
  exact Binary64.isAmount_mul (Binary64.isAmount_ofDecimal _ _)
    (isPositive_of_unitSeconds? isSeconds)

theorem isAmount_sumOf {spellings : List Spelling} (writes : Writes spellings text)
    {total : Binary64} (isAmount : total.IsAmount) : (sumOf total spellings).IsAmount := by
  induction writes generalizing total with
  | nil => exact isAmount
  | cons known maximal remaining ih =>
      exact ih (Binary64.isAmount_add isAmount (isAmount_seconds known))

/-! ## Durations -/

theorem parse_of_writes {text : String} {spellings : List Spelling} (nonempty : spellings ≠ [])
    (writes : Writes spellings (Text.strip text.toList)) :
    parse text = ofSeconds (sumOf Binary64.zero spellings) := by
  rw [parse]
  split
  next isEmpty => exact absurd (writes.eq_nil_iff.mp isEmpty) nonempty
  next =>
    rw [sumTokens_of_writes writes (Nat.le_refl _)]
    rfl

theorem ofSeconds_eq_error {seconds : Binary64} {error : DurationError}
    (failed : ofSeconds seconds = .error error) : error = .tooLong := by
  unfold ofSeconds at failed
  split at failed
  next => exact (Except.error.inj failed).symm
  next =>
    split at failed
    next => exact (Except.error.inj failed).symm
    next => exact absurd failed nofun

theorem ok_or_tooLong_of_writes {text : String} {spellings : List Spelling}
    (nonempty : spellings ≠ []) (writes : Writes spellings (Text.strip text.toList)) :
    (∃ duration, parse text = .ok duration) ∨ parse text = .error .tooLong := by
  rw [parse_of_writes nonempty writes]
  cases outcome : ofSeconds (sumOf Binary64.zero spellings) with
  | ok duration => exact .inl ⟨duration, rfl⟩
  | error fault => exact .inr (congrArg _ (ofSeconds_eq_error outcome))

theorem exists_refusal_of_not_writes {text : String}
    (unwritten : ¬∃ spellings, spellings ≠ [] ∧ Writes spellings (Text.strip text.toList)) :
    ∃ error, error ≠ .tooLong ∧ parse text = .error error := by
  rw [parse]
  split
  next => exact ⟨.empty, nofun, rfl⟩
  next someText =>
    cases summed : sumTokens text (Text.strip text.toList).length Binary64.zero
        (Text.strip text.toList) with
    | error fault =>
        refine ⟨fault, ?_, rfl⟩
        rintro rfl
        exact sumTokens_ne_tooLong _ _ _ summed
    | ok sum =>
        obtain ⟨spellings, writes⟩ := exists_writes_of_sumTokens summed
        have nonempty : spellings ≠ [] := mt writes.eq_nil_iff.mpr someText
        exact absurd ⟨spellings, nonempty, writes⟩ unwritten

/-- Exactly the texts that are no sequence of tokens are refused.  Every other text has the
sum of its tokens as its length, which is a number, and is refused only where that is too
long.  There are never more tokens than characters. -/
theorem parse_refuses_iff_not_writes (text : String) :
    ((∃ error, error ≠ .tooLong ∧ parse text = .error error) ↔
      ¬∃ spellings, spellings ≠ [] ∧ Writes spellings (Text.strip text.toList)) ∧
    (∀ spellings, spellings ≠ [] → Writes spellings (Text.strip text.toList) →
      sumOf Binary64.zero spellings ≠ .nan ∧
        parse text = ofSeconds (sumOf Binary64.zero spellings) ∧
        ((∃ duration, parse text = .ok duration) ∨ parse text = .error .tooLong)) ∧
    ∀ steps, (Text.strip text.toList).length ≤ steps →
      sumTokens text steps Binary64.zero (Text.strip text.toList) =
        sumTokens text (Text.strip text.toList).length Binary64.zero
          (Text.strip text.toList) := by
  refine ⟨⟨?refused, exists_refusal_of_not_writes⟩, fun spellings nonempty writes => ?written,
    fun steps enough => sumTokens_of_enough enough (Nat.le_refl _) Binary64.zero⟩
  case refused =>
    rintro ⟨error, notTooLong, failed⟩ ⟨spellings, nonempty, writes⟩
    rcases ok_or_tooLong_of_writes nonempty writes with ⟨duration, isDuration⟩ | isTooLong
    · exact absurd (failed.symm.trans isDuration) nofun
    · exact notTooLong (Except.error.inj (failed.symm.trans isTooLong))
  case written =>
    have isAmount : Binary64.zero.IsAmount := rfl
    exact ⟨(isAmount_sumOf writes isAmount).ne_nan, parse_of_writes nonempty writes,
      ok_or_tooLong_of_writes nonempty writes⟩

/-! An hour and a half, as it is usually written. -/

def hourSpelling : Spelling where
  before := []
  whole := ['1']
  fraction := []
  between := []
  unit := ['h']
  beforeBlank := List.all_eq_true.mp rfl
  wholeNonempty := by decide
  wholeDigits := List.all_eq_true.mp rfl
  fractionDigits := List.all_eq_true.mp rfl
  betweenBlank := List.all_eq_true.mp rfl
  unitNonempty := by decide
  unitLetters := List.all_eq_true.mp rfl

def minutesSpelling : Spelling where
  before := [' ']
  whole := ['3', '0']
  fraction := []
  between := []
  unit := ['m']
  beforeBlank := List.all_eq_true.mp rfl
  wholeNonempty := by decide
  wholeDigits := List.all_eq_true.mp rfl
  fractionDigits := List.all_eq_true.mp rfl
  betweenBlank := List.all_eq_true.mp rfl
  unitNonempty := by decide
  unitLetters := List.all_eq_true.mp rfl

theorem writes_hourAndHalf :
    Writes [hourSpelling, minutesSpelling] (Text.strip "1h 30m".toList) := by
  have minutes : Writes [minutesSpelling] minutesSpelling.text :=
    List.append_nil minutesSpelling.text ▸ .cons (by decide) nofun .nil
  refine .cons (by decide) (fun c isHead => ?_) minutes
  obtain rfl : ' ' = c := Option.some.inj isHead
  rfl

theorem parse_refuses_iff_not_writes_hourAndHalf :
    Writes [hourSpelling, minutesSpelling] (Text.strip "1h 30m".toList) ∧
      parse "1h 30m" = .ok ⟨5400000000⟩ := by
  obtain ⟨-, accepted, -⟩ := parse_refuses_iff_not_writes "1h 30m"
  obtain ⟨-, isSum, -⟩ := accepted _ (List.cons_ne_nil _ _) writes_hourAndHalf
  have inMicroseconds : (sumOf Binary64.zero [hourSpelling, minutesSpelling]).microseconds? =
      some 5400000000 := by decide +kernel
  rw [ofSeconds, inMicroseconds] at isSum
  exact ⟨writes_hourAndHalf, isSum⟩

end Duration

end ApiWorkshop
