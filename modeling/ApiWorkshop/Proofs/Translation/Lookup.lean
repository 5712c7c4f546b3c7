import ApiWorkshop.Proofs.Api.Reading
import ApiWorkshop.Proofs.Entries
import ApiWorkshop.Proofs.Text.Parts
import ApiWorkshop.Translation.Table

/-!
# Lookups in translation tables

A table can be split over any number of declarations.  What it holds for a field of
a model are the rules of all declarations for that field, one after the other, each
with its matcher read.  So a lookup gives the label of the first of these rules that
applies, and reading a matcher is undone by writing it.  The lookup of a value without a
display text fails when it comes to a literal.
-/

namespace ApiWorkshop

/-- When a rule applies to a value at a reference time.  A literal rule is for the value
that shows as its matcher; the rule of a span is for the timestamps that are at most as
old as the duration after the mark. -/
inductive Rule.Applies (asOf : DateTime) (value : Value) (rule : Rule) : Prop
  | literal (isLiteral : rule.isSpan = false) (isGiven : value ≠ .null)
      (shows : value.display = rule.matcher.toList)
  | span {length : String} {duration : Duration} {timestamp : DateTime}
      (isSpan : rule.matcher = spanMark ++ length) (isLength : Duration.parse length = .ok duration)
      (isTime : value.timestamp? = some timestamp)
      (isRecent : asOf.instant - timestamp.instant ≤ duration.microseconds)

/-- A rule is the first of some rules that applies to a value. -/
def Rule.IsFirst (asOf : DateTime) (value : Value) (rules : List Rule) (rule : Rule) : Prop :=
  ∃ before after, rules = before ++ rule :: after ∧ rule.Applies asOf value ∧
    ∀ earlier ∈ before, ¬ earlier.Applies asOf value

/-- The rules of all declarations for a field of a model, in order. -/
def declaredRules (model field : String) (translations : List Translation) : List Rule :=
  (translations.filter fun translation =>
    translation.model = model ∧ translation.field = field).flatMap Translation.rules

theorem declaredRules_cons (model field : String) (translation : Translation)
    (translations : List Translation) :
    declaredRules model field (translation :: translations) =
      (if translation.model = model ∧ translation.field = field then translation.rules else []) ++
        declaredRules model field translations := by
  rw [declaredRules, List.filter_cons]
  by_cases same : translation.model = model ∧ translation.field = field
  · simp [same, declaredRules]
  · simp [same, declaredRules]

/-! ## Matchers -/

namespace Matcher

/-- What a matcher is read from: a span mark with a duration, or any other text. -/
theorem parse_eq_ok_iff {text : String} {matcher : Matcher} :
    parse text = .ok matcher ↔
      (∃ length duration, text = spanMark ++ length ∧ Duration.parse length = .ok duration ∧
        matcher = .span length duration) ∨
      (¬ spanMark.toList <+: text.toList ∧ matcher = .literal text) := by
  rw [parse]
  cases isSpan : Text.after? spanMark text.toList with
  | none =>
      have noMark := Text.after?_eq_none_iff.mp isSpan
      have noSpan (length : String) : text ≠ spanMark ++ length := by
        rintro rfl
        exact noMark ⟨length.toList, by simp⟩
      simp [noMark, noSpan, eq_comm]
  | some rest =>
      have split := Text.after?_eq_some_iff.mp isSpan
      obtain rfl : text = spanMark ++ String.ofList rest := by
        rw [← String.toList_inj, split]
        simp
      have mark : spanMark.toList <+: (spanMark ++ String.ofList rest).toList :=
        ⟨rest, split.symm⟩
      simp only [mark, not_true, false_and, or_false, bind_eq_ok_iff, Except.ok.injEq]
      constructor
      · rintro ⟨duration, isLength, rfl⟩
        exact ⟨_, duration, rfl, isLength, rfl⟩
      · rintro ⟨length, duration, same, isLength, rfl⟩
        obtain rfl := String.append_right_inj _ |>.mp same
        exact ⟨duration, isLength, rfl⟩

/-- Writing a matcher gives the text that it was read from. -/
theorem text_of_parse {text : String} {matcher : Matcher} (isParsed : parse text = .ok matcher) :
    matcher.text = text := by
  rcases parse_eq_ok_iff.mp isParsed with ⟨length, duration, rfl, -, rfl⟩ | ⟨-, rfl⟩
  · rfl
  · rfl

/-- A matcher that can be tried tells whether it matches. -/
theorem matchesValue_of_tryValue {asOf : DateTime} {value : Value} {matcher : Matcher}
    {isMatch : Bool} (isTried : matcher.tryValue asOf value = .ok isMatch) :
    matcher.matchesValue asOf value = isMatch := by
  cases matcher with
  | literal text =>
      rw [tryValue] at isTried
      split at isTried
      · exact Except.ok.inj isTried
      · contradiction
  | span text duration => exact Except.ok.inj isTried

/-- Only a literal cannot be tried, and only on a value without a display text. -/
theorem tryValue_eq_error_iff {asOf : DateTime} {value : Value} {matcher : Matcher} :
    matcher.tryValue asOf value = .error .longInteger ↔
      value.isWritable = false ∧ ∃ text, matcher = .literal text := by
  cases matcher with
  | literal text => cases isWritable : value.isWritable <;> simp [tryValue, isWritable]
  | span text duration => simp [tryValue]

/-- The matcher of a rule matches the values that the rule applies to. -/
theorem matchesValue_iff_applies {rule : Rule} {matcher : Matcher}
    (isParsed : parse rule.matcher = .ok matcher) (asOf : DateTime) (value : Value) :
    matcher.matchesValue asOf value = true ↔ rule.Applies asOf value := by
  have isSpan_iff : rule.isSpan = true ↔ spanMark.toList <+: rule.matcher.toList := by
    rw [Rule.isSpan, List.isPrefixOf_iff_prefix]
  rcases parse_eq_ok_iff.mp isParsed with ⟨length, duration, isSpan, isLength, rfl⟩ | ⟨noSpan, rfl⟩
  · have marked : rule.isSpan = true := isSpan_iff.mpr ⟨length.toList, by simp [isSpan]⟩
    constructor
    · intro isMatch
      rw [matchesValue] at isMatch
      split at isMatch
      next timestamp isTime => exact .span isSpan isLength isTime (of_decide_eq_true isMatch)
      next => exact absurd isMatch Bool.false_ne_true
    · intro applies
      cases applies with
      | literal isLiteral _ _ => simp [marked] at isLiteral
      | span sameSpan sameLength isTime isRecent =>
          obtain rfl := (String.append_right_inj _).mp (isSpan.symm.trans sameSpan)
          obtain rfl := Except.ok.inj (isLength.symm.trans sameLength)
          rw [matchesValue, isTime]
          exact decide_eq_true isRecent
  · have unmarked : rule.isSpan = false := by
      rw [← Bool.not_eq_true, isSpan_iff]
      exact noSpan
    constructor
    · intro isMatch
      simp only [matchesValue, Bool.and_eq_true, bne_iff_ne, decide_eq_true_eq] at isMatch
      exact .literal unmarked isMatch.1 isMatch.2
    · intro applies
      cases applies with
      | literal _ isGiven shows => simp [matchesValue, isGiven, shows]
      | span isSpan => exact absurd ⟨_, by rw [isSpan, String.toList_append]⟩ noSpan

end Matcher

/-- The rule that a compiled rule was read from. -/
def CompiledRule.rule (compiled : CompiledRule) : Rule :=
  ⟨compiled.matcher.text, compiled.label⟩

/-- A compiled rule that can be read again matches the values that it applies to. -/
theorem CompiledRule.matchesValue_iff_applies {compiled : CompiledRule}
    (isParsed : Matcher.parse compiled.matcher.text = .ok compiled.matcher) (asOf : DateTime)
    (value : Value) :
    compiled.matcher.matchesValue asOf value = true ↔ compiled.rule.Applies asOf value :=
  @Matcher.matchesValue_iff_applies compiled.rule compiled.matcher isParsed asOf value

namespace TranslationTable

/-! ## Compiled rules -/

/-- Rules are compiled one by one, and each can be written back. -/
theorem compile_eq_ok_iff {rules : List Rule} {compiled : List CompiledRule} :
    compile rules = .ok compiled ↔ rules = compiled.map CompiledRule.rule ∧
      ∀ rule ∈ compiled, Matcher.parse rule.matcher.text = .ok rule.matcher := by
  induction rules generalizing compiled with
  | nil =>
      rw [compile, Except.ok.injEq, eq_comm, eq_comm (a := []), List.map_eq_nil_iff]
      exact ⟨by rintro rfl; simp, fun isNil => isNil.1⟩
  | cons rule rules ih =>
      simp only [compile, bind_eq_ok_iff, Except.ok.injEq, ih]
      constructor
      · rintro ⟨matcher, isParsed, rest, ⟨rfl, areParsed⟩, rfl⟩
        have sameText := Matcher.text_of_parse isParsed
        refine ⟨?_, List.forall_mem_cons.mpr ⟨sameText.symm ▸ isParsed, areParsed⟩⟩
        rw [List.map_cons, CompiledRule.rule, sameText]
      · rintro ⟨sameRules, areParsed⟩
        obtain ⟨first, rest, rfl, rfl, rfl⟩ := List.map_eq_cons_iff.mp sameRules.symm
        obtain ⟨isParsed, areParsed⟩ := List.forall_mem_cons.mp areParsed
        exact ⟨first.matcher, isParsed, rest, ⟨rfl, areParsed⟩, rfl⟩

theorem compile_append {first second : List Rule} {compiled others : List CompiledRule}
    (isFirst : compile first = .ok compiled) (isSecond : compile second = .ok others) :
    compile (first ++ second) = .ok (compiled ++ others) := by
  rw [compile_eq_ok_iff] at isFirst isSecond ⊢
  rw [List.map_append, ← isFirst.1, ← isSecond.1]
  exact ⟨rfl, List.forall_mem_append.mpr ⟨isFirst.2, isSecond.2⟩⟩

/-- The first compiled rule that matches comes from the first rule that applies. -/
theorem find?_matchesValue_eq_some_iff {rules : List Rule} {compiled : List CompiledRule}
    (isCompiled : compile rules = .ok compiled) {asOf : DateTime} {value : Value} {label : String} :
    (compiled.find? fun rule => rule.matcher.matchesValue asOf value).map CompiledRule.label =
        some label ↔
      ∃ rule, Rule.IsFirst asOf value rules rule ∧ rule.label = label := by
  obtain ⟨rfl, areParsed⟩ := compile_eq_ok_iff.mp isCompiled
  have isMatch_iff {rule : CompiledRule} (member : rule ∈ compiled) :
      rule.matcher.matchesValue asOf value = true ↔ rule.rule.Applies asOf value :=
    CompiledRule.matchesValue_iff_applies (areParsed rule member) asOf value
  rw [Option.map_eq_some_iff]
  constructor
  · rintro ⟨found, isFound, rfl⟩
    obtain ⟨isMatch, before, after, rfl, noEarlier⟩ := List.find?_eq_some_iff_append.mp isFound
    refine ⟨found.rule, ⟨before.map CompiledRule.rule, after.map CompiledRule.rule, by simp,
      (isMatch_iff (by simp)).mp isMatch, List.forall_mem_map.mpr fun earlier isEarlier => ?_⟩, rfl⟩
    rw [← isMatch_iff (List.mem_append_left _ isEarlier)]
    simpa using noEarlier earlier isEarlier
  · rintro ⟨rule, ⟨before, after, split, applies, noEarlier⟩, rfl⟩
    obtain ⟨front, back, rfl, rfl, isBack⟩ := List.map_eq_append_iff.mp split
    obtain ⟨found, rest, rfl, rfl, rfl⟩ := List.map_eq_cons_iff.mp isBack
    refine ⟨found, List.find?_eq_some_iff_append.mpr
      ⟨(isMatch_iff (by simp)).mpr applies, front, rest, rfl, fun earlier isEarlier => ?_⟩, rfl⟩
    rw [Bool.not_eq_true', ← Bool.not_eq_true, isMatch_iff (List.mem_append_left _ isEarlier)]
    exact noEarlier _ (List.mem_map_of_mem isEarlier)

theorem find?_matchesValue_eq_none_iff {rules : List Rule} {compiled : List CompiledRule}
    (isCompiled : compile rules = .ok compiled) {asOf : DateTime} {value : Value} :
    (compiled.find? fun rule => rule.matcher.matchesValue asOf value).map CompiledRule.label =
        none ↔ ∀ rule ∈ rules, ¬ rule.Applies asOf value := by
  obtain ⟨rfl, areParsed⟩ := compile_eq_ok_iff.mp isCompiled
  rw [Option.map_eq_none_iff, List.find?_eq_none, List.forall_mem_map]
  exact forall₂_congr fun rule member => not_congr
    (CompiledRule.matchesValue_iff_applies (areParsed rule member) asOf value)

/-! ## Values without a display text -/

/-- Labels that are found are those of the first compiled rule that matches. -/
theorem find?_of_firstLabel {asOf : DateTime} {value : Value} {compiled : List CompiledRule}
    {label : Option String} (isFound : firstLabel asOf value compiled = .ok label) :
    (compiled.find? fun rule => rule.matcher.matchesValue asOf value).map CompiledRule.label =
      label := by
  induction compiled with
  | nil => exact Except.ok.inj isFound
  | cons rule compiled ih =>
      obtain ⟨isMatch, isTried, isRest⟩ := bind_eq_ok_iff.mp isFound
      have sameMatch := Matcher.matchesValue_of_tryValue isTried
      cases isMatch with
      | true => rw [List.find?_cons, sameMatch, Except.ok.inj isRest.symm, Option.map_some]
      | false =>
          rw [List.find?_cons, sameMatch]
          exact ih isRest

/-- No label is found exactly if the rules come to a literal for a value that has no
display text. -/
theorem firstLabel_eq_error_iff {asOf : DateTime} {value : Value} {compiled : List CompiledRule} :
    firstLabel asOf value compiled = .error .longInteger ↔
      value.isWritable = false ∧ ∃ before text label after,
        compiled = before ++ ⟨.literal text, label⟩ :: after ∧
        ∀ rule ∈ before, rule.matcher.tryValue asOf value = .ok false := by
  constructor
  · intro isError
    induction compiled with
    | nil => contradiction
    | cons rule compiled ih =>
        rw [firstLabel] at isError
        cases isTried : rule.matcher.tryValue asOf value with
        | error error =>
            obtain ⟨notWritable, text, isLiteral⟩ := Matcher.tryValue_eq_error_iff.mp isTried
            exact ⟨notWritable, [], text, rule.label, compiled, by rw [← isLiteral]; rfl, by simp⟩
        | ok isMatch =>
            rw [isTried] at isError
            cases isMatch with
            | true => contradiction
            | false =>
                obtain ⟨notWritable, before, text, label, after, rfl, noEarlier⟩ := ih isError
                exact ⟨notWritable, rule :: before, text, label, after, rfl,
                  List.forall_mem_cons.mpr ⟨isTried, noEarlier⟩⟩
  · rintro ⟨notWritable, before, text, label, after, rfl, noEarlier⟩
    induction before with
    | nil =>
        have isError : (Matcher.literal text).tryValue asOf value = .error .longInteger :=
          Matcher.tryValue_eq_error_iff.mpr ⟨notWritable, text, rfl⟩
        rw [List.nil_append, firstLabel, isError]
        rfl
    | cons rule before ih =>
        obtain ⟨isTried, restTried⟩ := List.forall_mem_cons.mp noEarlier
        rw [List.cons_append, firstLabel, isTried]
        exact ih restTried

/-- A lookup that finds an answer gives the first label. -/
theorem translate_of_lookup {model field : String} {value : Value} {asOf : DateTime}
    {table : TranslationTable} {label : Option String}
    (isFound : lookup model field value asOf table = .ok label) :
    translate model field value asOf table = label :=
  find?_of_firstLabel isFound

/-- The lookup of a value with a display text gives the first label. -/
theorem lookup_of_isWritable {value : Value} (isWritable : value.isWritable = true)
    (model field : String) (asOf : DateTime) (table : TranslationTable) :
    lookup model field value asOf table = .ok (translate model field value asOf table) := by
  cases isLookup : lookup model field value asOf table with
  | ok label => rw [translate_of_lookup isLookup]
  | error error =>
      obtain ⟨notWritable, -⟩ := firstLabel_eq_error_iff.mp isLookup
      rw [isWritable] at notWritable
      contradiction

/-! ## Rules for a field -/

theorem rules_extend (model field : String) (key : FieldKey) (more : List CompiledRule)
    (table : TranslationTable) :
    rules model field (extend key more table) =
      rules model field table ++ if key.1 = model ∧ key.2 = field then more else [] := by
  by_cases same : key = (model, field)
  · subst same
    rw [rules, extend, Entries.get?_put_self, if_pos ⟨rfl, rfl⟩]
    rfl
  · have different : ¬ (key.1 = model ∧ key.2 = field) := fun both => same (Prod.ext both.1 both.2)
    rw [rules, extend, Entries.get?_put_of_ne (Ne.symm same), if_neg different, List.append_nil]
    rfl

theorem nodup_keys_of_addAll {translations : List Translation} {table extended : TranslationTable}
    (distinct : (Entries.keys table).Nodup) (isExtended : addAll translations table = .ok extended) :
    (Entries.keys extended).Nodup := by
  induction translations generalizing table with
  | nil =>
      obtain rfl := Except.ok.inj isExtended
      exact distinct
  | cons translation translations ih =>
      obtain ⟨compiled, -, isRest⟩ := bind_eq_ok_iff.mp isExtended
      exact ih (Entries.nodup_keys_put distinct) isRest

/-- Adding translations to a table puts the rules for a field after those it has. -/
theorem compile_declaredRules_of_addAll {translations : List Translation}
    {table extended : TranslationTable} (isExtended : addAll translations table = .ok extended)
    (model field : String) :
    ∃ more, compile (declaredRules model field translations) = .ok more ∧
      rules model field extended = rules model field table ++ more := by
  induction translations generalizing table with
  | nil =>
      obtain rfl := Except.ok.inj isExtended
      exact ⟨[], rfl, (List.append_nil _).symm⟩
  | cons translation translations ih =>
      obtain ⟨compiled, isCompiled, isRest⟩ := bind_eq_ok_iff.mp isExtended
      obtain ⟨more, isMore, sameRules⟩ := ih isRest
      rw [rules_extend] at sameRules
      rw [declaredRules_cons, sameRules, List.append_assoc]
      refine ⟨_, compile_append ?_ isMore, rfl⟩
      split
      · exact isCompiled
      · rfl

variable {translations : List Translation} {table : TranslationTable}

/-- The rules of a table for a field are those of all declarations for it. -/
theorem compile_declaredRules (isTable : ofTranslations translations = .ok table)
    (model field : String) :
    compile (declaredRules model field translations) = .ok (rules model field table) := by
  obtain ⟨more, isMore, sameRules⟩ := compile_declaredRules_of_addAll isTable model field
  rwa [sameRules]

theorem nodup_keys_of_ofTranslations (isTable : ofTranslations translations = .ok table) :
    (Entries.keys table).Nodup := by
  have fromNone : (Entries.keys ([] : TranslationTable)).Nodup := List.nodup_nil
  exact nodup_keys_of_addAll fromNone isTable

end TranslationTable

end ApiWorkshop
