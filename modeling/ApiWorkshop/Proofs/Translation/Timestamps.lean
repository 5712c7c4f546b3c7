import ApiWorkshop.Proofs.Time.Iso
import ApiWorkshop.Translation.Table

/-!
# Timestamps and their texts in lookups

A lookup sees a value only as its display text and as its timestamp.  A date and a
date-time have both in common with their texts, so they can be given as either.
-/

namespace ApiWorkshop

namespace Value

/-- What a matcher can see of two values is the same. -/
structure Interchangeable (first second : Value) : Prop where
  given : first ≠ .null ∧ second ≠ .null
  display : first.display = second.display
  timestamp : first.timestamp? = second.timestamp?

/-! ## Texts that are read as they stand -/

theorem withNumericZone_of_noLetter {text : Text} (noZulu : ∀ c ∈ text, c ≠ 'Z' ∧ c ≠ 'z') :
    withNumericZone text = text := by
  rw [withNumericZone]
  split
  next c isLast =>
    obtain ⟨notUpper, notLower⟩ := noZulu c (List.mem_of_getLast? isLast)
    simp [notUpper, notLower]
  next => rfl

/-- A character that neither is trimmed nor stands for universal time. -/
def IsPlain (c : Char) : Prop :=
  Text.isBlank c = false ∧ c ≠ 'Z' ∧ c ≠ 'z'

theorem isPlain_of_isDigit (c : Char) (isDigit : Text.isDigit c = true) : IsPlain c := by
  refine ⟨Text.isBlank_of_isDecimalDigit (Text.isDecimalDigit_of_isDigit isDigit), ?_, ?_⟩
  · rintro rfl
    exact absurd isDigit (by decide)
  · rintro rfl
    exact absurd isDigit (by decide)

theorem timestamp?_string {text : Text} (arePlain : ∀ c ∈ text, IsPlain c) :
    (Value.string (String.ofList text)).timestamp? = (Iso.dateTime? text).map DateTime.aware := by
  have noBlank : ∀ c ∈ text, Text.isBlank c = false := fun c member => (arePlain c member).1
  have noZulu : ∀ c ∈ text, c ≠ 'Z' ∧ c ≠ 'z' := fun c member => (arePlain c member).2
  rw [timestamp?, String.toList_ofList, Text.strip, Text.trim_eq_self noBlank,
    withNumericZone_of_noLetter noZulu]

theorem interchangeable_date (value : Date) :
    Interchangeable (.date value) (.string (String.ofList value.text)) where
  given := ⟨nofun, nofun⟩
  display := (String.toList_ofList).symm
  timestamp := by
    have arePlain : ∀ c ∈ value.text, IsPlain c :=
      Iso.forall_mem_text_date isPlain_of_isDigit (by unfold IsPlain; decide) value
    rw [timestamp?_string arePlain, Iso.dateTime?_text_date]
    rfl

theorem interchangeable_dateTime {value : DateTime}
    (isRead : Iso.dateTime? value.text = some value) :
    Interchangeable (.dateTime value) (.string (String.ofList value.text)) where
  given := ⟨nofun, nofun⟩
  display := (String.toList_ofList).symm
  timestamp := by
    have arePlain : ∀ c ∈ value.text, IsPlain c := by
      apply Iso.forall_mem_text isPlain_of_isDigit <;> (unfold IsPlain; decide)
    rw [timestamp?_string arePlain, isRead]
    rfl

namespace Interchangeable

variable {first second : Value}

theorem matchesValue_eq (same : first.Interchangeable second) (asOf : DateTime)
    (matcher : Matcher) :
    matcher.matchesValue asOf first = matcher.matchesValue asOf second := by
  cases matcher with
  | literal text =>
      have firstGiven : (first != .null) = true := bne_iff_ne.mpr same.given.1
      have secondGiven : (second != .null) = true := bne_iff_ne.mpr same.given.2
      rw [Matcher.matchesValue, Matcher.matchesValue, firstGiven, secondGiven, same.display]
  | span text duration => rw [Matcher.matchesValue, Matcher.matchesValue, same.timestamp]

theorem translate_eq (same : first.Interchangeable second) (model field : String)
    (asOf : DateTime) (table : TranslationTable) :
    table.translate model field first asOf = table.translate model field second asOf := by
  simp only [TranslationTable.translate, same.matchesValue_eq]

end Interchangeable

end Value

namespace TranslationTable

open Value (interchangeable_date interchangeable_dateTime)

/-- A date, and a date-time that is read back from its text, are looked up as their texts
are.  Only an offset of less than a second keeps a date-time from being read back. -/
theorem translate_text (model field : String) (asOf : DateTime) (table : TranslationTable) :
    (∀ value : Date, translate model field (.date value) asOf table =
      translate model field (.string (String.ofList value.text)) asOf table) ∧
    (∀ value : DateTime, Iso.dateTime? value.text = some value →
      translate model field (.dateTime value) asOf table =
        translate model field (.string (String.ofList value.text)) asOf table) ∧
    ∀ value : DateTime, Iso.dateTime? value.text = some value ↔ ∀ offset ∈ value.offset,
      offset.microseconds = 0 ∨ 1000000 ≤ offset.microseconds.natAbs := by
  refine ⟨fun value => ?date, fun value isRead => ?dateTime, Iso.dateTime?_text_eq_self_iff⟩
  case date => exact (interchangeable_date value).translate_eq model field asOf table
  case dateTime => exact (interchangeable_dateTime isRead).translate_eq model field asOf table

/-- A quarter of a second after eleven, two hours east of universal time. -/
def releaseTime : DateTime where
  date := ⟨2024, 5, 10, by decide⟩
  clock := ⟨11, 0, 0, 250000, by decide⟩
  offset := some ⟨7200000000, by decide⟩

/-- A rule for the last second before the rule for the release. -/
def releaseTable : TranslationTable :=
  [(("file", "changed"),
    [⟨.span "1s" ⟨1000000⟩, "Just now"⟩,
      ⟨.literal "2024-05-10T11:00:00.250000+02:00", "At the release"⟩])]

theorem translate_text_of_releaseTime :
    translate "file" "changed" (.string "2024-05-10T11:00:00.250000+02:00")
      ⟨⟨2024, 5, 10, by decide⟩, ⟨9, 0, 1, 250001, by decide⟩, none⟩ releaseTable =
        some "At the release" := by
  obtain ⟨-, same, isRead⟩ := translate_text "file" "changed"
    ⟨⟨2024, 5, 10, by decide⟩, ⟨9, 0, 1, 250001, by decide⟩, none⟩ releaseTable
  have read := (isRead releaseTime).mpr (by decide)
  have text : String.ofList releaseTime.text = "2024-05-10T11:00:00.250000+02:00" := by
    decide +kernel
  rw [← text, ← same releaseTime read]
  decide +kernel

end TranslationTable

end ApiWorkshop
