import Mathlib.Data.List.Nodup
import Mathlib.Data.List.Perm.Basic
import ApiWorkshop.Project.TypeDefinitions
import ApiWorkshop.Proofs.Api.Folded
import ApiWorkshop.Proofs.Api.Reading
import ApiWorkshop.Proofs.Text.CaseWords

/-!
# The names of types

Every schema gives a type its name in one piece, and an array schema whose items are
objects gives a second one with an ending.  Names are changed on the way, so whether the
types have distinct names, whether their names can stand in a source, and whether a name
leads to the type of one schema only are all questions about the words of the schemas'
names; this module answers them.
-/

namespace ApiWorkshop

namespace Text

/-- What begins with a letter and goes on with letters and digits is an identifier. -/
theorem isIdentifier_iff_of_areParts {name : Text} (areParts : ∀ c ∈ name, isWordPart c = true) :
    isIdentifier name = true ↔ ∃ c, name.head? = some c ∧ c.isAlpha = true := by
  have goesOn {c : Char} (isPart : isWordPart c = true) : isIdentifierContinue c = true := by
    rw [isWordPart] at isPart
    rw [isIdentifierContinue, isPart, Bool.or_true, Bool.true_or]
  have starts_iff {c : Char} (isPart : isWordPart c = true) :
      isIdentifierStart c = true ↔ c.isAlpha = true := by
    constructor
    · intro starts
      rcases Bool.or_eq_true_iff.mp isPart with isLetter | isDigit
      · exact isLetter
      · have code := code_of_isDigit isDigit
        have noMark : c ≠ '_' := by
          rintro rfl
          exact absurd code (by decide)
        have isAscii : ¬ 128 ≤ c.toNat := by omega
        simpa [isIdentifierStart, noMark, isAscii] using starts
    · intro isLetter
      rw [isIdentifierStart, isLetter, Bool.or_true, Bool.true_or]
  cases name with
  | nil => simp [isIdentifier]
  | cons c rest =>
      obtain ⟨isPart, restParts⟩ := List.forall_mem_cons.mp areParts
      have restGoesOn : rest.all isIdentifierContinue = true :=
        List.all_eq_true.mpr fun d member => goesOn (restParts d member)
      rw [isIdentifier, restGoesOn, Bool.and_true, starts_iff isPart]
      simp

/-- A name in one piece is an identifier if the first letter or digit of the name is a
letter. -/
theorem isIdentifier_pascalCase_iff (name : Text) :
    isIdentifier (pascalCase name) = true ↔
      ∃ c, name.find? isWordPart = some c ∧ c.isAlpha = true := by
  rw [isIdentifier_iff_of_areParts isWordPart_of_mem_pascalCase, head?_pascalCase]
  cases isFirst : name.find? isWordPart with
  | none => simp
  | some c =>
      have sameKind := of_isWordPart (fun c => c.toUpper.isAlpha == c.isAlpha) (by decide)
        (List.find?_some isFirst)
      simpa using sameKind

/-- A name in one piece does not begin with a lower-case letter. -/
theorem not_isLower_of_mem_head?_pascalCase {name : Text} :
    ∀ c ∈ (pascalCase name).head?, c.isLower = false := by
  intro c isHead
  rw [head?_pascalCase, Option.mem_def, Option.map_eq_some_iff] at isHead
  obtain ⟨first, isFirst, rfl⟩ := isHead
  have notLower := of_isWordPart (fun c => !c.toUpper.isLower) (by decide)
    (List.find?_some isFirst)
  simpa using notLower

end Text

/-- A name that can stand as the name of a type in a source. -/
def IsTypeName (name : Text) : Prop :=
  RecordType.isFieldName (String.ofList name) = true

instance (name : Text) : Decidable (IsTypeName name) :=
  inferInstanceAs (Decidable (_ = true))

theorem isTypeName_iff {name : Text} :
    IsTypeName name ↔ Text.isIdentifier name = true ∧ String.ofList name ∉ Text.keywords := by
  rw [IsTypeName, RecordType.isFieldName, String.toList_ofList]
  simp

/-- Three keywords do not begin with a lower-case letter. -/
theorem isTypeName_pascalCase_iff (name : Text) :
    IsTypeName (Text.pascalCase name) ↔
      (∃ c, name.find? Text.isWordPart = some c ∧ c.isAlpha = true) ∧
        String.ofList (Text.pascalCase name) ∉ ["False", "None", "True"] := by
  have upper : ∀ word ∈ Text.keywords, word ∈ ["False", "None", "True"] ∨
      word.toList.head?.any Char.isLower = true := by decide
  have same : String.ofList (Text.pascalCase name) ∈ Text.keywords ↔
      String.ofList (Text.pascalCase name) ∈ ["False", "None", "True"] := by
    constructor
    · intro member
      rcases upper _ member with isUpper | isLower
      · exact isUpper
      · rw [String.toList_ofList, Option.any_eq_true] at isLower
        obtain ⟨c, isHead, isLower⟩ := isLower
        rw [Text.not_isLower_of_mem_head?_pascalCase c isHead] at isLower
        contradiction
    · have areKeywords : ∀ word ∈ ["False", "None", "True"], word ∈ Text.keywords := by decide
      exact areKeywords _
  rw [isTypeName_iff, Text.isIdentifier_pascalCase_iff, same]

namespace Schema

/-- Whether a schema gives a record for its items: an array schema whose items are objects
of their own. -/
def hasItemRecord (schema : String × Schema) : Bool :=
  match schema.2.type, schema.2.items with
  | .array, some (.object _ _ _) => true
  | _, _ => false

/-- Whether a schema declares objects as its items: by themselves, or by fields that move
onto them. -/
def declaresItemRecord (schema : String × Schema) : Bool :=
  match schema.2.type, schema.2.fields, schema.2.items with
  | .array, [], some (.object _ _ _) => true
  | .array, _ :: _, _ => true
  | _, _, _ => false

theorem hasItemRecord_completeSchema (name : String) {schema : Schema}
    (bare : schema.type = .array → schema.fields ≠ [] →
      ∀ item ∈ schema.items, ∃ required notes, item = .object [] required notes) :
    hasItemRecord (name, Normalize.completeSchema schema) = declaresItemRecord (name, schema) := by
  cases isType : schema.type with
  | primitive type => simp [hasItemRecord, declaresItemRecord, Normalize.completeSchema, isType]
  | object => simp [hasItemRecord, declaresItemRecord, Normalize.completeSchema, isType]
  | array =>
      by_cases noFields : schema.fields = []
      · cases isItem : schema.items with
        | none =>
            simp [hasItemRecord, declaresItemRecord, Normalize.completeSchema, isType, noFields,
              isItem]
        | some item =>
            cases item <;>
              simp [hasItemRecord, declaresItemRecord, Normalize.completeSchema, isType, noFields,
                isItem, Normalize.completeField]
      · have isFolded := Normalize.folded_completeSchema isType noFields (bare isType noFields)
        obtain ⟨properties, notes, isItem, -, -⟩ := isFolded.items
        obtain ⟨field, fields, areFields⟩ := List.exists_cons_of_ne_nil noFields
        rw [hasItemRecord, declaresItemRecord]
        simp only [isFolded.type, isItem, isType, areFields]

/-- An ending makes no keyword of the name of a type. -/
theorem isTypeName_itemTypeName {schema : String × Schema} (isName : IsTypeName (typeName schema)) :
    IsTypeName (itemTypeName schema) := by
  obtain ⟨isIdentifier, -⟩ := isTypeName_iff.mp isName
  have areParts : ∀ c ∈ typeName schema, Text.isWordPart c = true :=
    Text.isWordPart_of_mem_pascalCase
  obtain ⟨c, isHead, isLetter⟩ := (Text.isIdentifier_iff_of_areParts areParts).mp isIdentifier
  have ending : ∀ word ∈ Text.keywords, ¬ "Item".toList <:+ word.toList := by decide
  refine isTypeName_iff.mpr ⟨?_, fun isKeyword => ending _ isKeyword ?_⟩
  · refine (Text.isIdentifier_iff_of_areParts
      (List.forall_mem_append.mpr ⟨areParts, List.all_eq_true.mp (by decide)⟩)).mpr ⟨c, ?_, isLetter⟩
    rw [List.head?_append, isHead]
    rfl
  · have characters : (String.ofList (itemTypeName schema)).toList = itemTypeName schema :=
      String.toList_ofList
    rw [characters]
    exact List.suffix_append (typeName schema) "Item".toList

end Schema

namespace Api

open Schema

/-- The names of all types of a project. -/
def typeNames (api : Api) : List Text :=
  api.records.map RecordType.name ++ api.aliases.map TypeAlias.name

theorem perm_typeNames_of_schema (schema : String × Schema) :
    (((record? schema).map RecordType.name).toList ++
      (((singleAlias? schema).map TypeAlias.name).toList ++
        ((listAlias? schema).map TypeAlias.name).toList)).Perm
      ([typeName schema] ++ if hasItemRecord schema then [itemTypeName schema] else []) := by
  obtain ⟨name, schema⟩ := schema
  cases isType : schema.type with
  | primitive type => simp [record?, singleAlias?, listAlias?, hasItemRecord, isType]
  | object => simp [record?, singleAlias?, listAlias?, hasItemRecord, isType, RecordType.make]
  | array =>
      cases isItem : schema.items with
      | none => simp [record?, singleAlias?, listAlias?, hasItemRecord, isType, isItem]
      | some item =>
          cases item with
          | object properties required notes =>
              simpa [record?, singleAlias?, listAlias?, hasItemRecord, isType, isItem,
                RecordType.make] using List.Perm.swap _ _ []
          | primitive | anyArray | array | reference =>
              simp [record?, singleAlias?, listAlias?, hasItemRecord, isType, isItem]

/-- The types have the names of all schemas, and those of their item records. -/
theorem perm_typeNames (api : Api) :
    api.typeNames.Perm
      (api.schemas.map typeName ++ (api.schemas.filter hasItemRecord).map itemTypeName) := by
  have named {α : Type} (found : String × Schema → Option α) (name : α → Text) :
      (api.schemas.filterMap found).map name =
        api.schemas.flatMap fun schema => ((found schema).map name).toList := by
    rw [List.map_filterMap, List.filterMap_eq_flatMap_toList]
  have filtered : (api.schemas.filter hasItemRecord).map itemTypeName =
      api.schemas.flatMap fun schema =>
        if hasItemRecord schema then [itemTypeName schema] else [] := by
    induction api.schemas with
    | nil => rfl
    | cons schema schemas ih => cases isArray : hasItemRecord schema <;> simp [isArray, ih]
  rw [typeNames, records, aliases, List.map_append, named, named, named, filtered,
    List.map_eq_flatMap]
  refine ((List.flatMap_append_perm _ _ _).append_left _).trans ?_
  refine (List.flatMap_append_perm _ _ _).trans (.trans ?_ (List.flatMap_append_perm _ _ _).symm)
  exact List.Perm.flatMap_left _ fun schema _ => perm_typeNames_of_schema schema

theorem typeName_mem_typeNames {api : Api} {schema : String × Schema}
    (isSchema : schema ∈ api.schemas) : typeName schema ∈ api.typeNames := by
  rw [(perm_typeNames api).mem_iff]
  exact List.mem_append_left _ (List.mem_map_of_mem isSchema)

/-- No name of a schema's type is that of another one or of an item record. -/
structure KeepsTypesApart (api : Api) : Prop where
  schemas : (api.schemas.map typeName).Nodup
  items : ∀ schema ∈ api.schemas, ∀ array ∈ api.schemas, hasItemRecord array = true →
    typeName schema ≠ itemTypeName array

theorem nodup_typeNames_iff (api : Api) : api.typeNames.Nodup ↔ api.KeepsTypesApart := by
  rw [(perm_typeNames api).nodup_iff, List.nodup_append]
  constructor
  · rintro ⟨schemas, -, apart⟩
    exact ⟨schemas, fun schema isSchema array isArray hasRecord =>
      apart _ (List.mem_map_of_mem isSchema) _
        (List.mem_map_of_mem (List.mem_filter.mpr ⟨isArray, hasRecord⟩))⟩
  · rintro ⟨schemas, items⟩
    refine ⟨schemas, ?_, ?_⟩
    · -- The ending is the same for all, so item records are apart because the arrays are.
      have arrays := schemas.sublist ((List.filter_sublist (p := hasItemRecord)).map typeName)
      have ended : (api.schemas.filter hasItemRecord).map itemTypeName =
          ((api.schemas.filter hasItemRecord).map typeName).map (· ++ "Item".toList) := by
        rw [List.map_map]
        rfl
      rw [ended]
      exact List.Nodup.map (fun _ _ same => List.append_cancel_right same) arrays
    · rintro name isName other isOther rfl
      obtain ⟨schema, isSchema, rfl⟩ := List.mem_map.mp isName
      obtain ⟨array, isArray, same⟩ := List.mem_map.mp isOther
      obtain ⟨inSchemas, hasRecord⟩ := List.mem_filter.mp isArray
      exact items schema isSchema array inSchemas hasRecord same.symm

/-- Names are distinct exactly if the name of every schema's type stands for one type. -/
theorem nodup_typeNames_iff_count (api : Api) :
    api.typeNames.Nodup ↔
      ∀ schema ∈ api.schemas, api.typeNames.count (typeName schema) = 1 := by
  constructor
  · exact fun distinct schema isSchema =>
      List.count_eq_one_of_mem distinct (typeName_mem_typeNames isSchema)
  · intro once
    have split (name : Text) : api.typeNames.count name =
        (api.schemas.map typeName).count name +
          ((api.schemas.filter hasItemRecord).map itemTypeName).count name := by
      rw [(perm_typeNames api).count_eq, List.count_append]
    refine (nodup_typeNames_iff api).mpr ⟨List.nodup_iff_count_le_one.mpr fun name => ?_, ?_⟩
    · by_cases member : name ∈ api.schemas.map typeName
      · obtain ⟨schema, isSchema, rfl⟩ := List.mem_map.mp member
        have isOnce := once schema isSchema
        have parts := split (typeName schema)
        omega
      · rw [List.count_eq_zero_of_not_mem member]
        omega
    · intro schema isSchema array isArray hasRecord same
      have isOnce := once schema isSchema
      have parts := split (typeName schema)
      have inSchemas := List.count_pos_iff.mpr (List.mem_map_of_mem (f := typeName) isSchema)
      have inItems := List.count_pos_iff.mpr (List.mem_map_of_mem (f := itemTypeName)
        (List.mem_filter.mpr ⟨isArray, hasRecord⟩))
      rw [← same] at inItems
      omega

/-- All names can stand in a source exactly if those of the schemas' types can. -/
theorem forall_isTypeName_iff (api : Api) :
    (∀ name ∈ api.typeNames, IsTypeName name) ↔
      ∀ schema ∈ api.schemas, IsTypeName (typeName schema) := by
  constructor
  · exact fun areNames schema isSchema => areNames _ (typeName_mem_typeNames isSchema)
  · intro areNames name isName
    rw [(perm_typeNames api).mem_iff, List.mem_append] at isName
    rcases isName with isName | isName
    · obtain ⟨schema, isSchema, rfl⟩ := List.mem_map.mp isName
      exact areNames schema isSchema
    · obtain ⟨array, isArray, rfl⟩ := List.mem_map.mp isName
      exact isTypeName_itemTypeName (areNames array (List.mem_filter.mp isArray).1)

end Api

/-! ## Accepted definitions -/

open Schema Normalize

section Accepted

variable {heading : Heading} {definitions : List Definition} {api : Api}

/-- In accepted definitions an array schema with fields declares at most a bare object as
its items. -/
theorem bareItems_of_normalize (isApi : normalize heading definitions = .ok api)
    {schema : String × Schema} (isDeclared : schema ∈ definitions.flatMap Definition.schemas)
    (isArray : schema.2.type = .array) (hasFields : schema.2.fields ≠ []) :
    ∀ item ∈ schema.2.items, ∃ required notes, item = .object [] required notes := by
  obtain ⟨passed, -⟩ := Api.normalize_eq_ok_iff_passed.mp isApi
  obtain ⟨definition, isDefinition, isSchema⟩ := List.mem_flatMap.mp isDeclared
  have noProblem := passed.schemas definition isDefinition schema isSchema ""
  rw [Check.checkSchema, isArray] at noProblem
  have noShapeProblem := (List.append_eq_nil_iff.mp noProblem).2
  exact ((Check.checkArraySchema_eq_nil_iff_of_fields hasFields).mp noShapeProblem).1

theorem hasItemRecord_of_normalize (isApi : normalize heading definitions = .ok api)
    {schema : String × Schema} (isDeclared : schema ∈ definitions.flatMap Definition.schemas) :
    hasItemRecord (schema.1, completeSchema schema.2) = declaresItemRecord schema :=
  hasItemRecord_completeSchema schema.1 (bareItems_of_normalize isApi isDeclared)

/-- When the types of accepted definitions have distinct names, when all names can stand
in a source, and when the name of each schema's type stands for that type only. -/
theorem typeNames_of_normalize (isApi : normalize heading definitions = .ok api) :
    let declared := definitions.flatMap Definition.schemas
    (api.typeNames.Nodup ↔ (declared.map typeName).Nodup ∧
      ∀ schema ∈ declared, ∀ array ∈ declared, declaresItemRecord array = true →
        typeName schema ≠ itemTypeName array) ∧
    ((∀ name ∈ api.typeNames, IsTypeName name) ↔ ∀ schema ∈ declared,
      (∃ c, schema.1.toList.find? Text.isWordPart = some c ∧ c.isAlpha = true) ∧
        String.ofList (typeName schema) ∉ ["False", "None", "True"]) ∧
    (api.typeNames.Nodup ↔ ∀ schema ∈ declared, api.typeNames.count (typeName schema) = 1) := by
  intro declared
  have areSchemas : api.schemas = declared.map fun schema => (schema.1, completeSchema schema.2) :=
    Api.schemas_of_normalize isApi
  have forall_schemas_iff (holds : Text → Prop) :
      (∀ schema ∈ api.schemas, holds (typeName schema)) ↔
        ∀ schema ∈ declared, holds (typeName schema) := by
    rw [areSchemas]
    exact List.forall_mem_map
  refine ⟨?_, ?_, ?_⟩
  · rw [Api.nodup_typeNames_iff]
    constructor
    · rintro ⟨schemas, items⟩
      rw [areSchemas, List.map_map] at schemas
      refine ⟨schemas, fun schema isSchema array isArray declares => ?_⟩
      rw [areSchemas] at items
      exact items (schema.1, completeSchema schema.2) (List.mem_map_of_mem isSchema)
        (array.1, completeSchema array.2) (List.mem_map_of_mem isArray)
        ((hasItemRecord_of_normalize isApi isArray).trans declares)
    · rintro ⟨schemas, items⟩
      refine ⟨by rwa [areSchemas, List.map_map], ?_⟩
      rw [areSchemas]
      refine List.forall_mem_map.mpr fun schema isSchema =>
        List.forall_mem_map.mpr fun array isArray hasRecord => ?_
      exact items schema isSchema array isArray
        ((hasItemRecord_of_normalize isApi isArray).symm.trans hasRecord)
  · rw [Api.forall_isTypeName_iff, forall_schemas_iff IsTypeName]
    exact forall₂_congr fun schema _ => isTypeName_pascalCase_iff schema.1
  · rw [Api.nodup_typeNames_iff_count]
    exact forall_schemas_iff fun name => api.typeNames.count name = 1

end Accepted

/-- A definition file with an array of objects beside other schemas. -/
def membersFile : SourceText :=
  ⟨"members.toml", Text.ofLines [
    "[schemas.member]", "name = \"string\"",
    "[schemas.member-list]", "type = \"array\"", "id = \"integer\"",
    "[schemas.role]", "type = \"string\""]⟩

/-- The types of the file have distinct names that can stand in a source. -/
theorem typeNames_of_membersFile :
    ∃ definitions api, Definition.readAll [membersFile] = .ok definitions ∧
      normalize {} definitions = .ok api ∧
      (api.typeNames.map String.ofList) = ["Member", "MemberListItem", "Role", "MemberList"] ∧
      api.typeNames.Nodup ∧ ∀ name ∈ api.typeNames, IsTypeName name := by
  have evaluated : ((Definition.readAll [membersFile]).toOption.any fun definitions =>
      (normalize {} definitions).toOption.any fun api =>
        let declared := definitions.flatMap Definition.schemas
        decide ((api.typeNames.map String.ofList) =
          ["Member", "MemberListItem", "Role", "MemberList"]) &&
        decide ((declared.map typeName).Nodup ∧
          ∀ schema ∈ declared, ∀ array ∈ declared, declaresItemRecord array = true →
            typeName schema ≠ itemTypeName array) &&
        decide (∀ schema ∈ declared,
          (schema.1.toList.find? Text.isWordPart).any Char.isAlpha = true ∧
            String.ofList (typeName schema) ∉ ["False", "None", "True"])) = true := by
    decide +kernel
  obtain ⟨definitions, areRead, evaluated⟩ := exists_of_any_toOption evaluated
  obtain ⟨api, isApi, evaluated⟩ := exists_of_any_toOption evaluated
  simp only [Bool.and_eq_true, decide_eq_true_eq] at evaluated
  obtain ⟨⟨areNames, apart⟩, canStand⟩ := evaluated
  obtain ⟨nodup_iff, isTypeName_iff, -⟩ := typeNames_of_normalize isApi
  refine ⟨definitions, api, areRead, isApi, areNames, nodup_iff.mpr apart,
    isTypeName_iff.mpr fun schema isSchema => ?_⟩
  obtain ⟨startsWithLetter, noKeyword⟩ := canStand schema isSchema
  exact ⟨(Option.any_eq_true _ _).mp startsWithLetter, noKeyword⟩

/-- A definition file with schemas whose names have the same words, and one whose name
begins with a digit. -/
def twinSchemasFile : SourceText :=
  ⟨"users.toml", Text.ofLines [
    "[schemas.userInfo]", "id = \"string\"",
    "[schemas.user_info]", "email = \"string\"",
    "[schemas.2fa]", "code = \"string\""]⟩

/-- Two schemas give types of the same name, and one a name that is no identifier. -/
theorem typeName_repeated_of_twinSchemasFile :
    ∃ definitions api, Definition.readAll [twinSchemasFile] = .ok definitions ∧
      normalize {} definitions = .ok api ∧
      (definitions.flatMap Definition.schemas).map Prod.fst = ["userInfo", "user_info", "2fa"] ∧
      (api.typeNames.map String.ofList) = ["UserInfo", "UserInfo", "2fa"] ∧
      ¬ api.typeNames.Nodup ∧ ¬ ∀ name ∈ api.typeNames, IsTypeName name := by
  have evaluated : ((Definition.readAll [twinSchemasFile]).toOption.any fun definitions =>
      (normalize {} definitions).toOption.any fun api =>
        decide ((definitions.flatMap Definition.schemas).map Prod.fst =
          ["userInfo", "user_info", "2fa"]) &&
        decide ((api.typeNames.map String.ofList) = ["UserInfo", "UserInfo", "2fa"]) &&
        decide (¬ api.typeNames.Nodup) &&
        decide (¬ ∀ name ∈ api.typeNames, IsTypeName name)) = true := by
    decide +kernel
  obtain ⟨definitions, areRead, evaluated⟩ := exists_of_any_toOption evaluated
  obtain ⟨api, isApi, evaluated⟩ := exists_of_any_toOption evaluated
  simp only [Bool.and_eq_true, decide_eq_true_eq] at evaluated
  obtain ⟨⟨⟨areKeys, areNames⟩, repeated⟩, notAll⟩ := evaluated
  exact ⟨definitions, api, areRead, isApi, areKeys, areNames, repeated, notAll⟩

end ApiWorkshop
