import Mathlib.Control.Monad.Basic
import ApiWorkshop.Proofs.Api.Accepted
import ApiWorkshop.Proofs.Api.Reading

/-!
# Durations in the rules of translations

A rule that asks for a recent timestamp has a duration, and the duration may be
at fault.  Checking tells every such fault at its rule, except for two things: a
duration out of range ends the check, and a table that repeats another one is
told as a repeat only.
-/

namespace ApiWorkshop

/-- What is wrong with the duration in the matcher of a rule, if the matcher
asks for one. -/
def Rule.durationFault? (rule : Rule) : Option DurationError :=
  match Text.after? spanMark rule.matcher.toList with
  | none => none
  | some length =>
      match Duration.parse (String.ofList length) with
      | .ok _ => none
      | .error fault => some fault

theorem Rule.parse_eq_error_iff {rule : Rule} {fault : DurationError} :
    Matcher.parse rule.matcher = .error fault ↔ rule.durationFault? = some fault := by
  rw [Matcher.parse, durationFault?]
  cases Text.after? spanMark rule.matcher.toList with
  | none => simp
  | some length =>
      cases isLength : Duration.parse (String.ofList length) <;>
        simp [isLength, Bind.bind, Except.bind]

theorem Rule.durationFault?_of_parse {rule : Rule} {matcher : Matcher}
    (isParsed : Matcher.parse rule.matcher = .ok matcher) : rule.durationFault? = none := by
  cases isFault : rule.durationFault? with
  | none => rfl
  | some fault => simp [parse_eq_error_iff.mpr isFault] at isParsed

/-- Whether a problem is that of a duration. -/
def ProblemKind.isSpan : ProblemKind → Bool
  | invalidSpan _ => true
  | _ => false

namespace Check

/-- The problem of a rule with its number in the table at a location. -/
def spanProblem? (source location : String) (numbered : Rule × Nat) : Option Problem :=
  numbered.1.durationFault?.map fun fault =>
    problem (.invalidSpan fault) source s!"{location}.translations[{numbered.2}]"

/-- The problems of the rules of a table, one for each duration at fault. -/
def spanProblems (declared : Declared Translation) : List Problem :=
  declared.value.rules.zipIdx.filterMap
    (spanProblem? declared.source (translationLocation declared.value))

/-- The problem of a table that repeats one of another file. -/
def repeatProblem (repeated : Declared Translation × String) : Problem :=
  problem (.duplicateTranslations (translationLocation repeated.1.value) repeated.2)
    repeated.1.source (translationLocation repeated.1.value)

/-- The problems of a table that may repeat another one. -/
def translationProblems :
    Declared Translation ⊕ (Declared Translation × String) → List Problem
  | .inl declared => spanProblems declared
  | .inr repeated => [repeatProblem repeated]

/-- A table all of whose durations can be told to be right or wrong. -/
def InRange (declared : Declared Translation) : Prop :=
  ∀ rule ∈ declared.value.rules, rule.durationFault? ≠ some .tooLong

/-! ## The problems of translations -/

theorem checkRules_eq_ok_iff {source location : String} {rules : List Rule} {index : Nat}
    {found : List Problem} :
    checkRules source location index rules = .ok found ↔
      (∀ rule ∈ rules, rule.durationFault? ≠ some .tooLong) ∧
        found = (rules.zipIdx index).filterMap (spanProblem? source location) := by
  induction rules generalizing index found with
  | nil => simp [checkRules, eq_comm]
  | cons rule rules ih =>
      rw [checkRules, List.forall_mem_cons, List.zipIdx_cons]
      split
      next isLong =>
        simp [Rule.parse_eq_error_iff.mp isLong]
      next fault isShort isParsed =>
        have isFault := Rule.parse_eq_error_iff.mp isParsed
        have inRange : rule.durationFault? ≠ some .tooLong := by
          rw [isFault]
          exact fun same => isShort (Option.some.inj same)
        rw [List.filterMap_cons_some (by rw [spanProblem?, isFault, Option.map_some]),
          bind_eq_ok_iff]
        constructor
        · rintro ⟨rest, areRest, same⟩
          obtain ⟨restInRange, rfl⟩ := ih.mp areRest
          exact ⟨⟨inRange, restInRange⟩, (Except.ok.inj same).symm⟩
        · rintro ⟨⟨-, restInRange⟩, rfl⟩
          exact ⟨_, ih.mpr ⟨restInRange, rfl⟩, rfl⟩
      next isParsed =>
        have noFault := Rule.durationFault?_of_parse isParsed
        rw [List.filterMap_cons_none (by rw [spanProblem?, noFault, Option.map_none]), ih]
        simp [noFault]

theorem checkTranslations_eq_ok_iff
    {split : List (Declared Translation ⊕ (Declared Translation × String))}
    {found : List Problem} :
    checkTranslations split = .ok found ↔
      (∀ declared ∈ firsts split, InRange declared) ∧
        found = split.flatMap translationProblems := by
  induction split generalizing found with
  | nil => simp [checkTranslations, firsts, eq_comm]
  | cons head split ih =>
      rw [List.flatMap_cons]
      cases head with
      | inl declared =>
          have isFirst : firsts (.inl declared :: split) = declared :: firsts split := rfl
          rw [checkTranslations, bind_eq_ok_iff, isFirst, List.forall_mem_cons]
          constructor
          · rintro ⟨first, areFirst, others⟩
            obtain ⟨rest, areRest, same⟩ := bind_eq_ok_iff.mp others
            obtain ⟨inRange, rfl⟩ := checkRules_eq_ok_iff.mp areFirst
            obtain ⟨restInRange, rfl⟩ := ih.mp areRest
            exact ⟨⟨inRange, restInRange⟩, (Except.ok.inj same).symm⟩
          · rintro ⟨⟨inRange, restInRange⟩, rfl⟩
            refine ⟨_, checkRules_eq_ok_iff.mpr ⟨inRange, rfl⟩, bind_eq_ok_iff.mpr ?_⟩
            exact ⟨_, ih.mpr ⟨restInRange, rfl⟩, rfl⟩
      | inr repeated =>
          have noFirst : firsts (.inr repeated :: split) = firsts split := rfl
          rw [checkTranslations, bind_eq_ok_iff, noFirst]
          constructor
          · rintro ⟨rest, areRest, same⟩
            obtain ⟨inRange, rfl⟩ := ih.mp areRest
            exact ⟨inRange, (Except.ok.inj same).symm⟩
          · rintro ⟨inRange, rfl⟩
            exact ⟨_, ih.mpr ⟨inRange, rfl⟩, rfl⟩

/-! ## No other check tells of durations -/

/-- The problems of durations among some problems. -/
def spansAmong (found : List Problem) : List Problem :=
  found.filter (·.kind.isSpan)

@[simp]
theorem spansAmong_nil : spansAmong [] = [] :=
  rfl

@[simp]
theorem spansAmong_append (first second : List Problem) :
    spansAmong (first ++ second) = spansAmong first ++ spansAmong second :=
  List.filter_append ..

theorem spansAmong_eq_nil {found : List Problem}
    (noSpan : ∀ problem ∈ found, problem.kind.isSpan = false) : spansAmong found = [] :=
  List.filter_eq_nil_iff.mpr fun problem member => by simp [noSpan problem member]

theorem spansAmong_flatMap {α : Type} (items : List α) (check : α → List Problem) :
    spansAmong (items.flatMap check) = items.flatMap fun item => spansAmong (check item) :=
  List.filter_flatMap

@[simp]
theorem spansAmong_cons (kind : ProblemKind) (source location : String) (found : List Problem) :
    spansAmong (problem kind source location :: found) =
      if kind.isSpan then
        problem kind source location :: spansAmong found
      else
        spansAmong found :=
  List.filter_cons

theorem spansAmong_checkChoice (choices : List Value) {kind : Value → ProblemKind}
    (noSpan : ∀ value, (kind value).isSpan = false) (source location : String)
    (value : Option Value) : spansAmong (checkChoice choices kind source location value) = [] := by
  cases value with
  | none => rfl
  | some value =>
      rw [checkChoice]
      split
      · rfl
      · simp [noSpan value]

@[simp]
theorem spansAmong_checkChoices (choices : Option (List Value)) (fallback sample : Option Value)
    (source location : String) :
    spansAmong (checkChoices choices fallback sample source location) = [] := by
  match choices with
  | none => rfl
  | some [] => rfl
  | some (choice :: choices) =>
      show spansAmong (checkChoice .. ++ checkChoice ..) = []
      rw [spansAmong_append, spansAmong_checkChoice _ fun _ => rfl,
        spansAmong_checkChoice _ fun _ => rfl, List.append_nil]

@[simp]
theorem spansAmong_checkRequired (required fields : List String) (source location : String) :
    spansAmong (checkRequired required fields source location) = [] :=
  spansAmong_eq_nil (List.forall_mem_map.mpr fun _ _ => rfl)

mutual

@[simp]
theorem spansAmong_checkField (known : List String) (owner source : String) :
    ∀ (location : String) (field : Field),
      spansAmong (checkField known owner source location field) = []
  | _, .primitive .. => by simp [checkField]
  | _, .anyArray _ => by simp [checkField]
  | _, .array item _ => by simp [checkField, spansAmong_checkField known owner source _ item]
  | _, .object properties _ _ => by
      simp [checkField, spansAmong_checkFields known owner source _ properties]
  | _, .reference .. => by
      rw [checkField]
      split
      · simp [ProblemKind.isSpan]
      · split <;> simp [ProblemKind.isSpan]

@[simp]
theorem spansAmong_checkFields (known : List String) (owner source : String) :
    ∀ (location : String) (fields : List (String × Field)),
      spansAmong (checkFields known owner source location fields) = []
  | _, [] => by simp [checkFields]
  | _, (_, field) :: fields => by
      simp [checkFields, spansAmong_checkField known owner source _ field,
        spansAmong_checkFields known owner source _ fields]

end

theorem isSpan_foldItem {schema : Schema} {item : Field} {fault : ProblemKind}
    (isFolded : foldItem schema = (item, some fault)) : fault.isSpan = false := by
  rw [foldItem] at isFolded
  split at isFolded <;> cases isFolded <;> rfl

@[simp]
theorem spansAmong_checkArraySchema (known : List String) (source location : String)
    (schema : Schema) : spansAmong (checkArraySchema known source location schema) = [] := by
  rw [checkArraySchema]
  split
  · cases schema.items <;> split <;> simp [ProblemKind.isSpan]
  · match isFolded : foldItem schema with
    | (item, none) => simp
    | (item, some fault) => simp [isSpan_foldItem isFolded]

@[simp]
theorem spansAmong_checkSchema (known : List String) (source : String) (schema : Schema) :
    spansAmong (checkSchema known source schema) = [] := by
  rw [checkSchema]
  cases schema.type with
  | primitive type =>
      dsimp only
      split <;> simp [ProblemKind.isSpan]
  | array => simp
  | object => simp

@[simp]
theorem spansAmong_checkParameter (known : List String) (source location : String)
    (parameter : Parameter) :
    spansAmong (checkParameter known source location parameter) = [] := by
  rw [checkParameter]
  cases parameter.type with
  | value type => simp
  | reference schema =>
      dsimp only
      split <;> simp [ProblemKind.isSpan]

@[simp]
theorem spansAmong_checkPlaceholders (known : List String) (source location : String)
    (parameters : Entries String Parameter) (seen names : List String) :
    spansAmong (checkPlaceholders known source location parameters seen names) = [] := by
  induction names generalizing seen with
  | nil => rfl
  | cons name names ih =>
      rw [checkPlaceholders]
      split
      · simp [ih, ProblemKind.isSpan]
      · cases Entries.get? name parameters <;> simp [ih]

@[simp]
theorem spansAmong_checkEndpoint (known : List String) (source location : String)
    (endpoint : Endpoint) :
    spansAmong (checkEndpoint known source location endpoint) = [] := by
  have noBody : spansAmong (checkBody known source location endpoint.body) = [] := by
    cases endpoint.body with
    | none => rfl
    | some body =>
        rw [checkBody]
        split <;> simp [ProblemKind.isSpan]
  have noMissing (names : List String) : spansAmong (names.map fun name =>
      problem (.missingPlaceholder name) source s!"{location} path_params.{name}") = [] :=
    spansAmong_eq_nil (List.forall_mem_map.mpr fun _ _ => rfl)
  simp [checkEndpoint, noBody, noMissing, spansAmong_flatMap]

@[simp]
theorem spansAmong_checkEndpoints (known : List String)
    (split : List (Declared (Nat × Endpoint) ⊕ (Declared (Nat × Endpoint) × String))) :
    spansAmong (checkEndpoints known split) = [] := by
  induction split with
  | nil => rfl
  | cons head split ih => cases head <;> simp [checkEndpoints, ih, ProblemKind.isSpan]

/-- Schemas and endpoints have no problems with durations. -/
theorem spansAmong_checkStructure (definitions : List Definition) :
    spansAmong (checkStructure definitions) = [] := by
  have noNames : spansAmong (checkSchemaNames definitions) = [] :=
    spansAmong_eq_nil (List.forall_mem_map.mpr fun _ _ => rfl)
  simp [checkStructure, noNames, checkSchemas, spansAmong_flatMap]

theorem isSpan_of_mem_spanProblems {declared : Declared Translation} :
    ∀ problem ∈ spanProblems declared, problem.kind.isSpan = true := by
  intro problem member
  obtain ⟨⟨rule, index⟩, -, isProblem⟩ := List.mem_filterMap.mp member
  obtain ⟨fault, -, rfl⟩ := Option.map_eq_some_iff.mp isProblem
  rfl

/-- What is told of durations are the faults in the tables that come first. -/
theorem spansAmong_translationProblems
    (split : List (Declared Translation ⊕ (Declared Translation × String))) :
    spansAmong (split.flatMap translationProblems) = (firsts split).flatMap spanProblems := by
  induction split with
  | nil => rfl
  | cons head split ih =>
      rw [List.flatMap_cons, spansAmong_append, ih]
      cases head with
      | inl declared =>
          have allSpans : spansAmong (spanProblems declared) = spanProblems declared :=
            List.filter_eq_self.mpr isSpan_of_mem_spanProblems
          rw [translationProblems, allSpans]
          rfl
      | inr repeated => rfl

end Check

/-- Definitions whose problems can all be told: no duration in a table that comes
first is out of range, and every wording can be written. -/
structure IsReportable (definitions : List Definition) : Prop where
  inRange : ∀ declared ∈ Check.firsts (Check.splitTranslations definitions),
    Check.InRange declared
  writable : ∀ problem ∈ Check.checkStructure definitions, problem.kind.isWritable = true

theorem problems_eq_ok_iff {definitions : List Definition} {found : List Problem} :
    problems definitions = .ok found ↔
      IsReportable definitions ∧
        found = Check.checkStructure definitions ++
          (Check.splitTranslations definitions).flatMap Check.translationProblems := by
  rw [problems]
  split
  next areWritable =>
    rw [List.all_eq_true] at areWritable
    rw [bind_eq_ok_iff]
    constructor
    · rintro ⟨translations, areTranslations, same⟩
      obtain ⟨inRange, rfl⟩ := Check.checkTranslations_eq_ok_iff.mp areTranslations
      exact ⟨⟨inRange, areWritable⟩, (Except.ok.inj same).symm⟩
    · rintro ⟨reportable, rfl⟩
      exact ⟨_, Check.checkTranslations_eq_ok_iff.mpr ⟨reportable.inRange, rfl⟩, rfl⟩
  next notWritable =>
    constructor
    · intro isOk
      contradiction
    · rintro ⟨reportable, -⟩
      exact absurd (List.all_eq_true.mpr reportable.writable) notWritable

/-- All problems are told exactly if they all can be.  Then a duration at fault in
a table that comes first is one problem at its rule, nothing else tells of
durations, and every other table is told as a repeat. -/
theorem problems_tell_durations (definitions : List Definition) :
    ((∃ found, problems definitions = .ok found) ↔ IsReportable definitions) ∧
      ∀ found, problems definitions = .ok found →
        Check.spansAmong found =
          (Check.firsts (Check.splitTranslations definitions)).flatMap Check.spanProblems ∧
        ∀ declared ∈ Check.declaredTranslations definitions,
          declared ∈ Check.firsts (Check.splitTranslations definitions) ∨
            ∃ first, Check.repeatProblem (declared, first) ∈ found := by
  refine ⟨⟨?_, ?_⟩, ?_⟩
  · rintro ⟨found, areFound⟩
    exact (problems_eq_ok_iff.mp areFound).1
  · exact fun reportable => ⟨_, problems_eq_ok_iff.mpr ⟨reportable, rfl⟩⟩
  · intro found areFound
    obtain ⟨-, rfl⟩ := problems_eq_ok_iff.mp areFound
    refine ⟨?_, fun declared isDeclared => ?_⟩
    · rw [Check.spansAmong_append, Check.spansAmong_checkStructure, List.nil_append,
        Check.spansAmong_translationProblems]
    · refine (Check.mem_firsts_or_repeats _ [] isDeclared).imp_right ?_
      rintro ⟨first, isRepeat⟩
      refine ⟨first, List.mem_append_right _ (List.mem_flatMap.mpr ?_)⟩
      exact ⟨.inr (declared, first), Check.mem_repeats_iff.mp isRepeat, List.mem_singleton_self _⟩

/-- Two files with a table each, of which the second one repeats the first one. -/
def repeatedTable : List Definition :=
  [{ source := "a.toml"
     translations := [⟨"user", "seen", [⟨"$span:1x", "odd"⟩, ⟨"$span:1h", "new"⟩, ⟨"$span:", "?"⟩]⟩] },
    { source := "b.toml", translations := [⟨"user", "seen", [⟨"$span:1y1", "late"⟩]⟩] }]

/-- Of the three durations at fault in two tables the two of the first one are
told, and the second table is told as a repeat. -/
theorem problems_tell_durations_of_repeatedTable :
    ∃ found, problems repeatedTable = .ok found ∧ Check.spansAmong found =
        [⟨.invalidSpan (.unknownUnit "x" "1x"), "a.toml", "models.user.seen.translations[0]"⟩,
          ⟨.invalidSpan .empty, "a.toml", "models.user.seen.translations[2]"⟩] ∧
      ∃ first, Check.repeatProblem
        (⟨"b.toml", "user", "seen", [⟨"$span:1y1", "late"⟩]⟩, first) ∈ found := by
  have reportable : IsReportable repeatedTable :=
    ⟨by unfold Check.InRange; decide +kernel, by decide +kernel⟩
  have ⟨isTold, told⟩ := problems_tell_durations repeatedTable
  obtain ⟨found, areFound⟩ := isTold.mpr reportable
  obtain ⟨spans, tables⟩ := told found areFound
  refine ⟨found, areFound, spans.trans (by decide +kernel), ?_⟩
  have notFirst : ⟨"b.toml", "user", "seen", [⟨"$span:1y1", "late"⟩]⟩ ∉
      Check.firsts (Check.splitTranslations repeatedTable) := by decide +kernel
  exact (tables _ (by decide +kernel)).resolve_left notFirst

/-- A file with a duration of more days than a length of time can have. -/
def longSpanFile : SourceText :=
  ⟨"a.toml", "[models.user.seen]\ntranslations = [[\"$span:1000000000d\", \"long ago\"]]\n".toList⟩

/-- A duration out of range is not told as a problem; it ends the check. -/
theorem problems_end_at_longSpanFile :
    ∃ definitions, Definition.readAll [longSpanFile] = .ok definitions ∧
      problems definitions = .error .durationTooLong := by
  have evaluated : ((Definition.readAll [longSpanFile]).toOption.any fun definitions =>
      decide (problems definitions = .error .durationTooLong)) = true := by decide +kernel
  obtain ⟨definitions, areRead, ended⟩ := exists_of_any_toOption evaluated
  exact ⟨definitions, areRead, of_decide_eq_true ended⟩

end ApiWorkshop
