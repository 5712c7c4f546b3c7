import ApiWorkshop.Proofs.Api.Closed
import ApiWorkshop.Proofs.Api.Faultless
import ApiWorkshop.Translation.Table

/-!
# Completed declarations

Completing declarations keeps them regular, and a completed schema has fields
only if it is an object.  The tables of an accepted API can be compiled.
-/

namespace ApiWorkshop

theorem Field.Regular.notes {field : Field} (regular : field.Regular) : field.notes.Regular := by
  cases regular with
  | primitive _ areNotes => exact areNotes
  | anyArray areNotes => exact areNotes
  | array _ areNotes => exact areNotes
  | object _ _ _ areNotes => exact areNotes
  | reference _ areNotes => exact areNotes

theorem Field.Regular.parts {field : Field} (regular : field.Regular) :
    ∀ part ∈ field.parts, part.Regular := by
  cases regular with
  | array isItem _ => exact List.forall_mem_singleton.mpr isItem
  | object _ _ areProperties _ => exact List.forall_mem_map.mpr areProperties
  | primitive _ _ | anyArray _ | reference _ _ => exact nofun

/-- A field inside a regular one is regular. -/
theorem Field.Inside.regular {inner outer : Field} (inside : inner.Inside outer)
    (regular : outer.Regular) : inner.Regular := by
  induction inside with
  | self => exact regular
  | part isPart _ ih => exact ih (regular.parts _ isPart)

namespace Normalize

theorem regular_completeNotes {notes : Notes} (areNotes : notes.Regular) :
    (completeNotes notes).Regular :=
  ⟨areNotes.choices, areNotes.fallback, areNotes.sample⟩

theorem regular_completeField {field : Field} (regular : field.Regular) :
    (completeField field).Regular := by
  induction regular with
  | primitive type areNotes => exact .primitive type (regular_completeNotes areNotes)
  | anyArray areNotes => exact .anyArray (regular_completeNotes areNotes)
  | array _ areNotes ih => exact .array ih (regular_completeNotes areNotes)
  | object required distinct _ areNotes ih =>
      rw [completeField]
      refine .object required ?_ ?_ (regular_completeNotes areNotes)
      · rwa [map_fst_completeFields]
      · rw [completeFields_eq_map]
        exact List.forall_mem_map.mpr ih
  | reference schema areNotes => exact .reference schema (regular_completeNotes areNotes)

theorem regular_foldItem {schema : Schema} (regular : schema.Regular) :
    (Check.foldItem schema).1.Regular := by
  have isFolded : (Check.foldedItem schema).Regular := by
    refine .object schema.required regular.distinct regular.fields ?_
    cases isItem : schema.items with
    | none => exact Notes.regular_empty
    | some item => exact (regular.items item isItem).notes
  rw [Check.foldItem]
  split
  next => exact isFolded
  next => exact isFolded
  next isItem => exact regular.items _ isItem
  next item _ _ isItem => exact regular.items item isItem

theorem regular_completeSchema {schema : Schema} (regular : schema.Regular) :
    (completeSchema schema).Regular := by
  have choices := regular.choices
  have sample := regular.sample
  have isArray := regular.isArray
  rw [completeSchema]
  dsimp only
  cases isType : schema.type with
  | object =>
      rw [isType] at isArray
      refine ⟨?_, ?_, regular.items, isArray, choices, sample⟩
      · dsimp only
        rw [Entries.keys, map_fst_completeFields]
        exact regular.distinct
      · dsimp only
        rw [completeFields_eq_map]
        exact List.forall_mem_map.mpr fun field isField =>
          regular_completeField (regular.fields field isField)
  | primitive type =>
      rw [isType] at isArray
      exact ⟨List.nodup_nil, List.forall_mem_nil _, regular.items, isArray, choices, sample⟩
  | array =>
      dsimp only
      split
      · refine ⟨regular.distinct, regular.fields, ?_, fun _ => rfl, choices, sample⟩
        intro item isItem
        obtain ⟨declared, isDeclared, rfl⟩ := Option.map_eq_some_iff.mp isItem
        exact regular_completeField (regular.items declared isDeclared)
      · refine ⟨List.nodup_nil, List.forall_mem_nil _, ?_, fun _ => rfl, choices, sample⟩
        intro item isItem
        obtain rfl := Option.some.inj isItem
        exact regular_completeField (regular_foldItem regular)

/-- Only an object schema has fields when it is completed. -/
theorem type_of_completeSchema {schema : Schema} (hasFields : (completeSchema schema).fields ≠ []) :
    (completeSchema schema).type = .object := by
  rw [completeSchema] at hasFields ⊢
  dsimp only at hasFields ⊢
  cases isType : schema.type with
  | object => rfl
  | primitive type => simp [isType] at hasFields
  | array =>
      simp only [isType] at hasFields
      split at hasFields
      next noFields => exact absurd (List.isEmpty_iff.mp noFields) hasFields
      next => exact absurd rfl hasFields

theorem regular_placeholderParameter {declared : Entries String Parameter}
    (areRegular : ∀ entry ∈ declared, entry.2.notes.Regular) (name : String) :
    (placeholderParameter declared name).notes.Regular := by
  rw [placeholderParameter]
  split
  next parameter isDeclared =>
    exact regular_completeNotes (areRegular _ (Entries.mem_of_get? isDeclared))
  next => exact regular_completeNotes Notes.regular_empty

theorem regular_parameters {endpoint : Endpoint} (regular : endpoint.Regular) :
    ∀ entry ∈ (completeEndpoint endpoint).pathParameters ++ (completeEndpoint endpoint).query,
      entry.2.notes.Regular := by
  intro entry member
  rcases List.mem_append.mp member with inPath | inQuery
  · obtain ⟨name, -, rfl⟩ := List.mem_map.mp inPath
    exact regular_placeholderParameter regular.pathParameters name
  · obtain ⟨declared, isDeclared, rfl⟩ := List.mem_map.mp inQuery
    exact regular_completeNotes (regular.query declared isDeclared)

end Normalize

/-- An API with regular declarations under distinct names. -/
structure Api.Regular (api : Api) : Prop where
  names : (Entries.keys api.schemas).Nodup
  schemas : ∀ entry ∈ api.schemas, entry.2.Regular
  isObject : ∀ entry ∈ api.schemas, entry.2.fields ≠ [] → entry.2.type = .object
  operations : (api.endpoints.map fun endpoint => (endpoint.method, endpoint.path)).Nodup
  parameters : ∀ endpoint ∈ api.endpoints, ∀ entry ∈ endpoint.pathParameters ++ endpoint.query,
    entry.2.notes.Regular

/-- Regular definitions come to a regular API. -/
theorem Api.regular_merge (heading : Heading) {definitions : List Definition}
    (areRegular : ∀ definition ∈ definitions, definition.Regular) :
    (Api.merge heading definitions).Regular := by
  have schemas : ∀ declared ∈ Check.declaredSchemas definitions, declared.value.2.Regular :=
    (Check.forall_declaredSchemas_iff Schema.Regular).mpr fun definition member =>
      (areRegular definition member).schemas
  have endpoints : ∀ declared ∈ Check.declaredEndpoints definitions, declared.value.2.Regular :=
    (Check.forall_declaredEndpoints_iff Endpoint.Regular).mpr fun definition member =>
      (areRegular definition member).endpoints
  refine ⟨?_, ?_, ?_, ?_, ?_⟩
  · rw [Api.merge, Entries.keys, List.map_map]
    exact (Check.nodup_firsts Prod.fst [] _).1
  · refine List.forall_mem_map.mpr fun declared isFirst => ?_
    exact Normalize.regular_completeSchema (schemas declared (Check.mem_of_mem_firsts _ _ isFirst))
  · exact List.forall_mem_map.mpr fun declared isFirst => Normalize.type_of_completeSchema
  · rw [Api.merge, List.map_map]
    exact (Check.nodup_firsts (fun entry : Nat × Endpoint => (entry.2.method, entry.2.path)) [] _).1
  · refine List.forall_mem_map.mpr fun declared isFirst => ?_
    exact Normalize.regular_parameters (endpoints declared (Check.mem_of_mem_firsts _ _ isFirst))

/-- The API of definitions that were read is regular. -/
theorem Api.regular_of_normalize {files : List SourceText} {heading : Heading}
    {definitions : List Definition} {api : Api}
    (areRead : Definition.readAll files = .ok definitions)
    (isApi : normalize heading definitions = .ok api) : api.Regular := by
  obtain ⟨rfl, -⟩ := eq_merge_of_normalize isApi
  exact Api.regular_merge heading (Definition.regular_of_readAll areRead)

/-! ## Tables of accepted APIs -/

namespace TranslationTable

theorem exists_compile {rules : List Rule} (noFault : ∀ rule ∈ rules, rule.durationFault? = none) :
    ∃ compiled, compile rules = .ok compiled := by
  induction rules with
  | nil => exact ⟨[], rfl⟩
  | cons rule rules ih =>
      obtain ⟨isRight, areRight⟩ := List.forall_mem_cons.mp noFault
      obtain ⟨rest, isRest⟩ := ih areRight
      cases isParsed : Matcher.parse rule.matcher with
      | error fault =>
          rw [Rule.parse_eq_error_iff, isRight] at isParsed
          contradiction
      | ok matcher =>
          exact ⟨⟨matcher, rule.label⟩ :: rest,
            bind_eq_ok_iff.mpr ⟨matcher, isParsed, bind_eq_ok_iff.mpr ⟨rest, isRest, rfl⟩⟩⟩

theorem exists_addAll {translations : List Translation}
    (noFault : ∀ translation ∈ translations, ∀ rule ∈ translation.rules, rule.durationFault? = none)
    (table : TranslationTable) : ∃ extended, addAll translations table = .ok extended := by
  induction translations generalizing table with
  | nil => exact ⟨table, rfl⟩
  | cons translation translations ih =>
      obtain ⟨isRight, areRight⟩ := List.forall_mem_cons.mp noFault
      obtain ⟨compiled, isCompiled⟩ := exists_compile isRight
      obtain ⟨extended, isExtended⟩ := ih areRight
        (extend (translation.model, translation.field) compiled table)
      exact ⟨extended, bind_eq_ok_iff.mpr ⟨compiled, isCompiled, isExtended⟩⟩

/-- The table of an accepted API can be compiled. -/
theorem exists_ofTranslations {heading : Heading} {definitions : List Definition} {api : Api}
    (isApi : normalize heading definitions = .ok api) :
    ∃ table, ofTranslations api.translations = .ok table := by
  have noProblem : problems definitions = .ok [] := by
    rw [normalize] at isApi
    split at isApi
    · contradiction
    next noProblem => exact noProblem
    · contradiction
  obtain ⟨rfl, -⟩ := eq_merge_of_normalize isApi
  have nothing := (problems_eq_ok_iff.mp noProblem).2
  have noSpan := (List.append_eq_nil_iff.mp nothing.symm).2
  refine exists_addAll (List.forall_mem_map.mpr ?_) []
  exact (Check.translationProblems_eq_nil_iff.mp noSpan).2

end TranslationTable

end ApiWorkshop
