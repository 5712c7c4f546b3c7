import ApiWorkshop.Proofs.Api.Regular
import ApiWorkshop.Proofs.Api.SchemaChecks

/-!
# Definitions without faults

The checks find nothing in definitions that were read exactly if the
definitions break no rule.
-/

namespace ApiWorkshop

theorem Parameter.Faultless.mono {known other : List String} {parameter : Parameter}
    (subset : known ⊆ other) (faultless : parameter.Faultless known) : parameter.Faultless other :=
  ⟨faultless.choices, fun schema isReference => subset (faultless.schema schema isReference)⟩

namespace Check

variable {known other : List String} {source location : String}

/-! ## What the checks of endpoints find -/

theorem checkParameter_eq_nil_iff {parameter : Parameter} :
    checkParameter known source location parameter = [] ↔ parameter.Faultless known := by
  rw [checkParameter, List.append_eq_nil_iff, checkChoices_eq_nil_iff]
  constructor
  · rintro ⟨choices, noReference⟩
    refine ⟨choices, fun schema isReference => ?_⟩
    simpa [isReference] using noReference
  · intro faultless
    refine ⟨faultless.choices, ?_⟩
    cases isType : parameter.type with
    | value type => rfl
    | reference schema => simpa using faultless.schema schema isType

theorem checkBody_eq_nil_iff {body : Option Body} :
    checkBody known source location body = [] ↔ ∀ found ∈ body, found.schema ∈ known := by
  cases body with
  | none => simp [checkBody]
  | some body => simp [checkBody]

theorem checkPlaceholders_eq_nil_iff {parameters : Entries String Parameter}
    {seen names : List String} :
    checkPlaceholders known source location parameters seen names = [] ↔
      names.Nodup ∧ (∀ name ∈ names, name ∉ seen) ∧
        ∀ name ∈ names, ∀ parameter, Entries.get? name parameters = some parameter →
          parameter.Faultless known := by
  constructor
  · intro noProblem
    obtain ⟨distinct, apart, declared⟩ := checkPlaceholders_eq_nil noProblem
    refine ⟨distinct, apart, fun name isName parameter isDeclared => ?_⟩
    obtain ⟨place, noFault⟩ := declared name isName parameter isDeclared
    exact checkParameter_eq_nil_iff.mp noFault
  · rintro ⟨distinct, apart, declared⟩
    induction names generalizing seen with
    | nil => rfl
    | cons name names ih =>
        obtain ⟨isNew, restDistinct⟩ := List.nodup_cons.mp distinct
        obtain ⟨notSeen, restApart⟩ := List.forall_mem_cons.mp apart
        obtain ⟨isDeclared, restDeclared⟩ := List.forall_mem_cons.mp declared
        have newApart : ∀ other ∈ names, other ∉ name :: seen := by
          intro other member inSeen
          rcases List.mem_cons.mp inSeen with rfl | inOld
          · exact isNew member
          · exact restApart other member inOld
        rw [checkPlaceholders, if_neg (by simpa using notSeen), ih restDistinct newApart restDeclared,
          List.append_nil]
        cases isFound : Entries.get? name parameters with
        | none => rfl
        | some parameter => exact checkParameter_eq_nil_iff.mpr (isDeclared parameter isFound)

/-- An endpoint whose path parameters have distinct names has no problems exactly if
it breaks no rule. -/
theorem checkEndpoint_eq_nil_iff {endpoint : Endpoint}
    (distinctNames : (Entries.keys endpoint.pathParameters).Nodup) :
    checkEndpoint known source location endpoint = [] ↔ endpoint.Faultless known := by
  rw [checkEndpoint]
  simp only [List.append_eq_nil_iff, List.map_eq_nil_iff, List.filter_eq_nil_iff,
    List.flatMap_eq_nil_iff, checkBody_eq_nil_iff, checkPlaceholders_eq_nil_iff,
    checkParameter_eq_nil_iff]
  constructor
  · rintro ⟨⟨⟨body, query⟩, distinct, -, areDeclared⟩, noMissing⟩
    have declared : ∀ name ∈ Entries.keys endpoint.pathParameters,
        name ∈ placeholders endpoint.path := fun name isName => by
      simpa using noMissing name isName
    refine ⟨body, query, fun entry isParameter => ?_, distinct, declared⟩
    have isName : entry.1 ∈ Entries.keys endpoint.pathParameters :=
      List.mem_map_of_mem isParameter
    exact areDeclared entry.1 (declared entry.1 isName) entry.2
      (Entries.get?_of_mem distinctNames isParameter)
  · intro faultless
    refine ⟨⟨⟨faultless.body, faultless.query⟩, faultless.distinct, by simp, ?_⟩, ?_⟩
    · exact fun name _ parameter isDeclared =>
        faultless.pathParameters _ (Entries.mem_of_get? isDeclared)
    · exact fun name isName => by simpa using faultless.declared name isName

/-- Whether an endpoint has problems does not depend on the place where it stands, and it
gets none when more schemas are known. -/
theorem checkEndpoint_eq_nil_mono (subset : known ⊆ other) {endpoint : Endpoint}
    (another place : String) (noProblem : checkEndpoint known source location endpoint = []) :
    checkEndpoint other another place endpoint = [] := by
  rw [checkEndpoint] at noProblem ⊢
  simp only [List.append_eq_nil_iff, List.map_eq_nil_iff, List.flatMap_eq_nil_iff,
    checkBody_eq_nil_iff, checkPlaceholders_eq_nil_iff, checkParameter_eq_nil_iff] at noProblem ⊢
  obtain ⟨⟨⟨body, query⟩, distinct, apart, declared⟩, noMissing⟩ := noProblem
  exact ⟨⟨⟨fun found isBody => subset (body found isBody),
    fun entry isQuery => (query entry isQuery).mono subset⟩, distinct, apart,
    fun name isName parameter isDeclared => (declared name isName parameter isDeclared).mono subset⟩,
    noMissing⟩

/-! ## What the checks of all declarations find -/

section Splitting

variable {α κ : Type} [DecidableEq κ] {key : α → κ}

/-- Nothing repeats exactly if all keys are different, and none was seen before. -/
theorem repeats_eq_nil_iff {seen : Entries κ String} {declarations : List (Declared α)} :
    repeats (splitRepeats key seen declarations) = [] ↔
      (declarations.map fun declared => key declared.value).Nodup ∧
        ∀ declared ∈ declarations, key declared.value ∉ Entries.keys seen := by
  induction declarations generalizing seen with
  | nil => simp [splitRepeats, repeats]
  | cons declared declarations ih =>
      rw [splitRepeats, List.map_cons, List.nodup_cons, List.forall_mem_cons]
      split
      next source isSeen =>
        have member := Entries.mem_keys_of_get? isSeen
        exact iff_of_false (List.cons_ne_nil _ _) fun distinct => distinct.2.1 member
      next notSeen =>
        have isNew : key declared.value ∉ Entries.keys seen := fun member => by
          simpa [notSeen] using Entries.isSome_get?_of_mem_keys member
        have rest : repeats (.inl declared :: splitRepeats key
              (seen ++ [(key declared.value, declared.source)]) declarations) =
            repeats (splitRepeats key (seen ++ [(key declared.value, declared.source)])
              declarations) := rfl
        have inExtended (other : κ) :
            other ∈ Entries.keys (seen ++ [(key declared.value, declared.source)]) ↔
              other ∈ Entries.keys seen ∨ other = key declared.value := by
          simp [Entries.keys]
        rw [rest, ih]
        simp only [inExtended, not_or]
        constructor
        · rintro ⟨distinct, apart⟩
          refine ⟨⟨fun member => ?_, distinct⟩, isNew, fun other isOther => (apart other isOther).1⟩
          obtain ⟨other, isOther, sameKey⟩ := List.mem_map.mp member
          exact (apart other isOther).2 sameKey
        · rintro ⟨⟨notOther, distinct⟩, -, apart⟩
          refine ⟨distinct, fun other isOther => ⟨apart other isOther, fun sameKey => ?_⟩⟩
          exact notOther (List.mem_map.mpr ⟨other, isOther, sameKey⟩)

theorem firsts_of_repeats_eq_nil {seen : Entries κ String} {declarations : List (Declared α)}
    (noRepeats : repeats (splitRepeats key seen declarations) = []) :
    firsts (splitRepeats key seen declarations) = declarations := by
  induction declarations generalizing seen with
  | nil => rfl
  | cons declared declarations ih =>
      rw [splitRepeats] at noRepeats ⊢
      split at noRepeats
      · exact absurd noRepeats (List.cons_ne_nil _ _)
      · exact congrArg (declared :: ·) (ih noRepeats)

end Splitting

theorem checkEndpoints_eq_nil_iff_forall
    {split : List (Declared (Nat × Endpoint) ⊕ (Declared (Nat × Endpoint) × String))} :
    checkEndpoints known split = [] ↔
      repeats split = [] ∧ ∀ declared ∈ firsts split, ∀ source location,
        checkEndpoint known source location declared.value.2 = [] := by
  induction split with
  | nil => simp [checkEndpoints, repeats, firsts]
  | cons head split ih =>
      cases head with
      | inl declared =>
          have isFirst : firsts (.inl declared :: split) = declared :: firsts split := rfl
          have noRepeat : repeats (.inl declared :: split) = repeats split := rfl
          rw [checkEndpoints, List.append_eq_nil_iff, ih, isFirst, noRepeat, List.forall_mem_cons]
          constructor
          · rintro ⟨noProblem, noRepeats, rest⟩
            exact ⟨noRepeats, fun source location => checkEndpoint_eq_nil_mono
              (List.Subset.refl known) source location noProblem, rest⟩
          · rintro ⟨noRepeats, noProblem, rest⟩
            exact ⟨noProblem _ _, noRepeats, rest⟩
      | inr repeated =>
          exact iff_of_false (List.cons_ne_nil _ _) fun noRepeat =>
            List.cons_ne_nil _ _ noRepeat.1

theorem checkEndpoints_eq_nil_iff
    {split : List (Declared (Nat × Endpoint) ⊕ (Declared (Nat × Endpoint) × String))}
    (distinctNames : ∀ declared ∈ firsts split,
      (Entries.keys declared.value.2.pathParameters).Nodup) :
    checkEndpoints known split = [] ↔
      repeats split = [] ∧ ∀ declared ∈ firsts split, declared.value.2.Faultless known := by
  rw [checkEndpoints_eq_nil_iff_forall]
  refine and_congr_right fun _ => forall₂_congr fun declared isFirst => ?_
  simp only [checkEndpoint_eq_nil_iff (distinctNames declared isFirst), forall_const]

theorem spanProblems_eq_nil_iff {declared : Declared Translation} :
    spanProblems declared = [] ↔ ∀ rule ∈ declared.value.rules, rule.durationFault? = none := by
  rw [spanProblems, List.filterMap_eq_nil_iff]
  constructor
  · intro noProblem rule isRule
    obtain ⟨index, isAt⟩ := List.getElem?_of_mem isRule
    simpa [spanProblem?] using noProblem (rule, index) (List.mk_mem_zipIdx_iff_getElem?.mpr isAt)
  · rintro noFault ⟨rule, index⟩ isNumbered
    have isRule := List.fst_mem_of_mem_zipIdx isNumbered
    simp [spanProblem?, noFault rule isRule]

theorem translationProblems_eq_nil_iff
    {split : List (Declared Translation ⊕ (Declared Translation × String))} :
    split.flatMap translationProblems = [] ↔
      repeats split = [] ∧ ∀ declared ∈ firsts split, ∀ rule ∈ declared.value.rules,
        rule.durationFault? = none := by
  induction split with
  | nil => simp [repeats, firsts]
  | cons head split ih =>
      rw [List.flatMap_cons, List.append_eq_nil_iff, ih]
      cases head with
      | inl declared =>
          have isFirst : firsts (.inl declared :: split) = declared :: firsts split := rfl
          have noRepeat : repeats (.inl declared :: split) = repeats split := rfl
          rw [translationProblems, spanProblems_eq_nil_iff, isFirst, noRepeat,
            List.forall_mem_cons]
          exact and_left_comm
      | inr repeated =>
          exact iff_of_false (fun noProblem => List.cons_ne_nil _ _ noProblem.1) fun noRepeat =>
            List.cons_ne_nil _ _ noRepeat.1

/-! ## Declarations of all files -/

variable {definitions : List Definition}

theorem keys_declaredSchemas :
    (declaredSchemas definitions).map (fun declared => declared.value.1) =
      schemaNames definitions := by
  simp [declaredSchemas, schemaNames, Entries.keys, List.map_flatMap, Function.comp_def]

theorem keys_declaredEndpoints :
    (declaredEndpoints definitions).map
        (fun declared => (declared.value.2.method, declared.value.2.path)) =
      definitions.flatMap fun definition => definition.endpoints.map fun endpoint =>
        (endpoint.method, endpoint.path) := by
  have withoutIndex (endpoints : List Endpoint) :
      endpoints.zipIdx.map (fun numbered => (numbered.1.method, numbered.1.path)) =
        endpoints.map fun endpoint => (endpoint.method, endpoint.path) := by
    have sameList := congrArg (List.map fun endpoint => (endpoint.method, endpoint.path))
      (List.zipIdx_map_fst 0 endpoints)
    rwa [List.map_map] at sameList
  simp [declaredEndpoints, List.map_flatMap, Function.comp_def, withoutIndex]

theorem keys_declaredTranslations :
    (declaredTranslations definitions).map
        (fun declared => (declared.value.model, declared.value.field)) =
      definitions.flatMap fun definition => definition.translations.map fun translation =>
        (translation.model, translation.field) := by
  simp [declaredTranslations, List.map_flatMap, Function.comp_def]

theorem forall_declaredSchemas_iff (rule : Schema → Prop) :
    (∀ declared ∈ declaredSchemas definitions, rule declared.value.2) ↔
      ∀ definition ∈ definitions, ∀ entry ∈ definition.schemas, rule entry.2 := by
  simp only [declaredSchemas, List.forall_mem_flatMap, List.forall_mem_map]

theorem forall_declaredEndpoints_iff (rule : Endpoint → Prop) :
    (∀ declared ∈ declaredEndpoints definitions, rule declared.value.2) ↔
      ∀ definition ∈ definitions, ∀ endpoint ∈ definition.endpoints, rule endpoint := by
  simp only [declaredEndpoints, List.forall_mem_flatMap, List.forall_mem_map]
  refine forall₂_congr fun definition _ => ⟨fun holds endpoint isEndpoint => ?_, ?_⟩
  · obtain ⟨index, isAt⟩ := List.getElem?_of_mem isEndpoint
    exact holds (endpoint, index) (List.mk_mem_zipIdx_iff_getElem?.mpr isAt)
  · rintro holds ⟨endpoint, index⟩ isNumbered
    exact holds endpoint (List.fst_mem_of_mem_zipIdx isNumbered)

theorem forall_declaredTranslations_iff (rule : Translation → Prop) :
    (∀ declared ∈ declaredTranslations definitions, rule declared.value) ↔
      ∀ definition ∈ definitions, ∀ translation ∈ definition.translations, rule translation := by
  simp only [declaredTranslations, List.forall_mem_flatMap, List.forall_mem_map]

/-- Nothing repeats a key exactly if the keys of all declarations are different. -/
theorem repeats_eq_nil_iff_nodup {α κ : Type} [DecidableEq κ] {key : α → κ}
    {declarations : List (Declared α)} :
    repeats (splitRepeats key [] declarations) = [] ↔
      (declarations.map fun declared => key declared.value).Nodup := by
  rw [repeats_eq_nil_iff, and_iff_left]
  simp [Entries.keys]

theorem repeats_splitSchemas_eq_nil_iff :
    repeats (splitSchemas definitions) = [] ↔ (schemaNames definitions).Nodup := by
  rw [← keys_declaredSchemas]
  exact repeats_eq_nil_iff_nodup

theorem repeats_splitEndpoints_eq_nil_iff :
    repeats (splitEndpoints definitions) = [] ↔
      (definitions.flatMap fun definition => definition.endpoints.map fun endpoint =>
        (endpoint.method, endpoint.path)).Nodup := by
  rw [← keys_declaredEndpoints]
  exact repeats_eq_nil_iff_nodup

theorem repeats_splitTranslations_eq_nil_iff :
    repeats (splitTranslations definitions) = [] ↔
      (definitions.flatMap fun definition => definition.translations.map fun translation =>
        (translation.model, translation.field)).Nodup := by
  rw [← keys_declaredTranslations]
  exact repeats_eq_nil_iff_nodup

/-- Regular definitions have no problems with names and schemas exactly if the names
are distinct and every schema breaks no rule. -/
theorem checkAllSchemas_eq_nil_iff
    (areRegular : ∀ definition ∈ definitions, definition.Regular) :
    checkSchemaNames definitions ++ checkSchemas definitions = [] ↔
      (schemaNames definitions).Nodup ∧ ∀ definition ∈ definitions,
        ∀ entry ∈ definition.schemas, entry.2.Faultless (schemaNames definitions) := by
  have hasItems : ∀ declared ∈ declaredSchemas definitions,
      declared.value.2.items ≠ none → declared.value.2.type = .array :=
    (forall_declaredSchemas_iff fun schema => schema.items ≠ none → schema.type = .array).mpr
      fun definition member entry isSchema =>
        ((areRegular definition member).schemas entry isSchema).isArray
  rw [List.append_eq_nil_iff, checkSchemaNames, List.map_eq_nil_iff,
    ← repeats_splitSchemas_eq_nil_iff]
  refine and_congr_right fun noRepeats => ?_
  rw [checkSchemas, List.flatMap_eq_nil_iff, splitSchemas, firsts_of_repeats_eq_nil noRepeats,
    ← forall_declaredSchemas_iff fun schema => schema.Faultless (schemaNames definitions)]
  exact forall₂_congr fun declared isDeclared =>
    checkSchema_eq_nil_iff (hasItems declared isDeclared)

theorem checkAllEndpoints_eq_nil_iff
    (areRegular : ∀ definition ∈ definitions, definition.Regular) :
    checkEndpoints known (splitEndpoints definitions) = [] ↔
      (definitions.flatMap fun definition => definition.endpoints.map fun endpoint =>
        (endpoint.method, endpoint.path)).Nodup ∧
      ∀ definition ∈ definitions, ∀ endpoint ∈ definition.endpoints,
        endpoint.Faultless known := by
  have distinctNames : ∀ declared ∈ declaredEndpoints definitions,
      (Entries.keys declared.value.2.pathParameters).Nodup :=
    (forall_declaredEndpoints_iff fun endpoint =>
      (Entries.keys endpoint.pathParameters).Nodup).mpr fun definition member endpoint isEndpoint =>
        ((areRegular definition member).endpoints endpoint isEndpoint).distinct
  have firstsDistinct : ∀ declared ∈ firsts (splitEndpoints definitions),
      (Entries.keys declared.value.2.pathParameters).Nodup :=
    fun declared isFirst => distinctNames declared (mem_of_mem_firsts _ _ isFirst)
  rw [checkEndpoints_eq_nil_iff firstsDistinct, ← repeats_splitEndpoints_eq_nil_iff]
  refine and_congr_right fun noRepeats => ?_
  rw [splitEndpoints, firsts_of_repeats_eq_nil noRepeats,
    ← forall_declaredEndpoints_iff fun endpoint => endpoint.Faultless known]

theorem checkAllTranslations_eq_nil_iff :
    (splitTranslations definitions).flatMap translationProblems = [] ↔
      (definitions.flatMap fun definition => definition.translations.map fun translation =>
        (translation.model, translation.field)).Nodup ∧
      ∀ definition ∈ definitions, ∀ translation ∈ definition.translations,
        ∀ rule ∈ translation.rules, rule.durationFault? = none := by
  rw [translationProblems_eq_nil_iff, ← repeats_splitTranslations_eq_nil_iff]
  refine and_congr_right fun noRepeats => ?_
  rw [splitTranslations, firsts_of_repeats_eq_nil noRepeats,
    ← forall_declaredTranslations_iff fun translation =>
      ∀ rule ∈ translation.rules, rule.durationFault? = none]

end Check

/-- Definitions that were read have no problems exactly if they break no rule. -/
theorem problems_eq_nil_iff_faultless {files : List SourceText} {definitions : List Definition}
    (areRead : Definition.readAll files = .ok definitions) :
    problems definitions = .ok [] ↔ Faultless definitions := by
  have areRegular := Definition.regular_of_readAll areRead
  have noProblems : ([] : List Problem) = Check.checkStructure definitions ++
      (Check.splitTranslations definitions).flatMap Check.translationProblems ↔
        Faultless definitions := by
    rw [eq_comm, List.append_eq_nil_iff, Check.checkStructure, List.append_eq_nil_iff,
      Check.checkAllSchemas_eq_nil_iff areRegular, Check.checkAllEndpoints_eq_nil_iff areRegular,
      Check.checkAllTranslations_eq_nil_iff]
    constructor
    · rintro ⟨⟨⟨schemaNames, schemas⟩, operations, endpoints⟩, tables, durations⟩
      exact { schemaNames, operations, tables, schemas, endpoints, durations }
    · exact fun faultless => ⟨⟨⟨faultless.schemaNames, faultless.schemas⟩, faultless.operations,
        faultless.endpoints⟩, faultless.tables, faultless.durations⟩
  rw [problems_eq_ok_iff, noProblems, and_iff_right_iff_imp]
  intro faultless
  have nothing := List.append_eq_nil_iff.mp (noProblems.mpr faultless).symm
  refine ⟨fun declared isFirst rule isRule => ?_, by simp [nothing.1]⟩
  have isDeclared := Check.mem_of_mem_firsts _ _ isFirst
  have noFault := (Check.forall_declaredTranslations_iff fun translation =>
    ∀ rule ∈ translation.rules, rule.durationFault? = none).mpr faultless.durations
      declared isDeclared
  simp [noFault rule isRule]

/-- Two files of which the first one has an array schema whose fields replace what its
items require, and refers to a schema of the second one. -/
def listFiles : List SourceText :=
  [⟨"list.toml", "[schemas.list]\ntype = \"array\"\nrequired = [\"next\"]\nnext = \"entry\"
items = \x7b type = \"object\", required = [\"gone\"] \x7d\n".toList⟩,
    ⟨"entry.toml", "[schemas.entry.size]\ntype = \"array\"\nitems = \"list\"
enum = [1, [2]]\ndefault = [2]\n".toList⟩]

/-- How many problems files have together, if they can be read and checked. -/
def problemCount? (files : List SourceText) : Option Nat :=
  match Definition.readAll files with
  | .ok definitions =>
      match problems definitions with
      | .ok found => some found.length
      | .error _ => none
  | .error _ => none

theorem exists_of_problemCount? {files : List SourceText} {count : Nat}
    (isCount : problemCount? files = some count) :
    ∃ definitions found, Definition.readAll files = .ok definitions ∧
      problems definitions = .ok found ∧ found.length = count := by
  rw [problemCount?] at isCount
  split at isCount
  next definitions areRead =>
    split at isCount
    next found areFound => exact ⟨definitions, found, areRead, areFound, Option.some.inj isCount⟩
    next => contradiction
  next => contradiction

/-- Both files together break no rule, and the first one alone breaks one. -/
theorem problems_eq_nil_iff_faultless_of_listFiles :
    (∃ definitions, Definition.readAll listFiles = .ok definitions ∧ Faultless definitions) ∧
      ∃ definitions, Definition.readAll (listFiles.take 1) = .ok definitions ∧
        ¬ Faultless definitions := by
  have noProblem : problemCount? listFiles = some 0 := by decide +kernel
  have oneProblem : problemCount? (listFiles.take 1) = some 1 := by decide +kernel
  obtain ⟨both, nothing, areRead, areFound, isEmpty⟩ := exists_of_problemCount? noProblem
  obtain ⟨first, found, isRead, isFound, isSingle⟩ := exists_of_problemCount? oneProblem
  obtain rfl := List.length_eq_zero_iff.mp isEmpty
  refine ⟨⟨both, areRead, (problems_eq_nil_iff_faultless areRead).mp areFound⟩,
    first, isRead, fun faultless => ?_⟩
  have none := (problems_eq_nil_iff_faultless isRead).mpr faultless
  obtain rfl := Except.ok.inj (isFound.symm.trans none)
  exact Nat.zero_ne_one isSingle

end ApiWorkshop
