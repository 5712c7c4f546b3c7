import ApiWorkshop.Proofs.Api.Closed
import ApiWorkshop.Proofs.Api.Idempotent
import ApiWorkshop.Proofs.Project.TypeNames

/-!
# Aliases are evaluated in order

When the module of the types is loaded, its records come first and then its aliases, one
after the other, and an alias can use only what came before it.  Records, the aliases of
single types and the records of items are always there in time; the alias of an array whose
items are of another array schema is in time only if that schema is declared before it.
-/

namespace ApiWorkshop

/-- The annotation of a list of what another annotation stands for. -/
def listOf (type : Text) : Text :=
  "list[" ++ type ++ "]"

/-- A name is mentioned in an annotation: as the type itself, or inside of any number of
lists. -/
inductive IsMentioned (name : Text) : Text → Prop
  | self : IsMentioned name name
  | list {type : Text} (inner : IsMentioned name type) : IsMentioned name (listOf type)

/-- Aliases can be evaluated one after the other: every name of a type in an annotation is
known by then, from the start or as that of an alias before. -/
def TypeAlias.Evaluable (types known : List Text) : List TypeAlias → Prop
  | [] => True
  | given :: rest =>
      (∀ name ∈ types, IsMentioned name given.annotation → name ∈ known) ∧
        Evaluable types (known ++ [given.name]) rest

/-- Aliases that follow others can use what these declare. -/
theorem TypeAlias.evaluable_append {types known : List Text} {first second : List TypeAlias} :
    Evaluable types known (first ++ second) ↔
      Evaluable types known first ∧ Evaluable types (known ++ first.map name) second := by
  induction first generalizing known with
  | nil => simp [Evaluable]
  | cons given first ih => simp [Evaluable, ih, and_assoc]

namespace Api

/-- The names that are there before the first alias: the one for any type, which is
imported, and those of the records. -/
def namesBeforeAliases (api : Api) : List Text :=
  "Any" :: api.records.map RecordType.name

/-- The aliases of a project can be evaluated in their order. -/
def IsEvaluable (api : Api) : Prop :=
  TypeAlias.Evaluable api.typeNames api.namesBeforeAliases api.aliases

end Api

/-! ## Names in annotations -/

theorem head?_listOf (type : Text) : (listOf type).head? = some 'l' :=
  rfl

theorem listOf_injective {first second : Text} (same : listOf first = listOf second) :
    first = second :=
  List.append_cancel_left (List.append_cancel_right same)

theorem isMentioned_iff_of_not_list {name type : Text} (notList : type.head? ≠ some 'l') :
    IsMentioned name type ↔ name = type := by
  constructor
  · intro mentioned
    cases mentioned with
    | self => rfl
    | list => exact absurd (head?_listOf _) notList
  · rintro rfl
    exact .self

/-- The names of types do not begin like the annotations that the language has. -/
def BeginsLikeType (name : Text) : Prop :=
  ∀ c ∈ name.head?, c.isLower = false

namespace BeginsLikeType

variable {name type : Text}

theorem notList (isType : BeginsLikeType name) : name.head? ≠ some 'l' :=
  fun isHead => absurd (isType 'l' isHead) (by decide)

theorem ne_of_isLower (isType : BeginsLikeType name)
    (isLower : type.head?.any Char.isLower = true) : name ≠ type := by
  rintro rfl
  obtain ⟨c, isHead, isLower⟩ := (Option.any_eq_true _ _).mp isLower
  rw [isType c isHead] at isLower
  contradiction

theorem isMentioned_listOf_iff (isType : BeginsLikeType name) :
    IsMentioned name (listOf type) ↔ IsMentioned name type := by
  refine ⟨fun mentioned => ?_, .list⟩
  generalize whole : listOf type = outer at mentioned
  cases mentioned with
  | self => exact absurd (whole ▸ head?_listOf type) isType.notList
  | list inner => exact listOf_injective whole ▸ inner

end BeginsLikeType

theorem beginsLikeType_typeName (schema : String × Schema) :
    BeginsLikeType (Schema.typeName schema) :=
  Text.not_isLower_of_mem_head?_pascalCase

theorem beginsLikeType_itemTypeName (schema : String × Schema) :
    BeginsLikeType (Schema.itemTypeName schema) := by
  intro c isHead
  rw [Schema.itemTypeName, List.head?_append] at isHead
  rcases Option.or_eq_some_iff.mp isHead with inName | ⟨-, inEnding⟩
  · exact beginsLikeType_typeName schema c inName
  · obtain rfl : 'I' = c := Option.some.inj inEnding
    rfl

theorem beginsLikeType_of_mem_typeNames {api : Api} {name : Text} (isType : name ∈ api.typeNames) :
    BeginsLikeType name := by
  rw [(Api.perm_typeNames api).mem_iff, List.mem_append] at isType
  rcases isType with isType | isType
  · obtain ⟨schema, -, rfl⟩ := List.mem_map.mp isType
    exact beginsLikeType_typeName schema
  · obtain ⟨array, -, rfl⟩ := List.mem_map.mp isType
    exact beginsLikeType_itemTypeName array

theorem Primitive.not_isMentioned {name : Text} (isType : BeginsLikeType name)
    (type : Primitive) : ¬ IsMentioned name type.annotation := by
  have isLower : type.annotation.head?.any Char.isLower = true := by cases type <;> decide
  have notList : type.annotation.head? ≠ some 'l' := by cases type <;> decide
  rw [isMentioned_iff_of_not_list notList]
  exact isType.ne_of_isLower isLower

namespace Field

/-- The schema that a field comes to as the item of any number of arrays, if it comes to
one. -/
def target? : Field → Option String
  | array item _ => item.target?
  | reference schema _ => some schema
  | _ => none

/-- The name of a type stands in the annotation of a field exactly if the field comes to
the schema of the type. -/
theorem isMentioned_annotation_iff {name : Text} (isType : BeginsLikeType name)
    (notAny : name ≠ "Any") (field : Field) :
    IsMentioned name field.annotation ↔ ∃ schema ∈ field.target?, name = Text.pascalCase schema := by
  cases field with
  | primitive type _ =>
      exact iff_of_false (type.not_isMentioned isType) (by simp [target?])
  | anyArray _ =>
      change IsMentioned name (listOf "Any") ↔ _
      rw [isType.isMentioned_listOf_iff, isMentioned_iff_of_not_list (by decide)]
      exact iff_of_false notAny (by simp [target?])
  | array item _ =>
      change IsMentioned name (listOf item.annotation) ↔ _
      rw [isType.isMentioned_listOf_iff, target?]
      exact isMentioned_annotation_iff isType notAny item
  | object _ _ _ =>
      change IsMentioned name "dict[str, Any]" ↔ _
      rw [isMentioned_iff_of_not_list (by decide)]
      exact iff_of_false (isType.ne_of_isLower (by decide)) (by simp [target?])
  | reference schema _ =>
      have isPascal : BeginsLikeType (Text.pascalCase schema) :=
        Text.not_isLower_of_mem_head?_pascalCase
      change IsMentioned name (Text.pascalCase schema) ↔ _
      rw [isMentioned_iff_of_not_list isPascal.notList]
      simp [target?]

theorem Closed.of_mem_target? {allowed : String → Prop} {field : Field}
    (closed : field.Closed allowed) : ∀ schema ∈ field.target?, allowed schema := by
  induction closed with
  | primitive | anyArray | object => simp [target?]
  | array _ _ ih => exact ih
  | reference _ isAllowed => simpa [target?] using isAllowed

theorem target?_completeField (field : Field) :
    (Normalize.completeField field).target? = field.target? := by
  cases field with
  | array item _ => exact target?_completeField item
  | primitive | anyArray | object | reference => rfl

end Field

/-! ## Arrays of arrays -/

namespace Schema

/-- The schema that the items of an array schema come to, if they come to one. -/
def itemTarget? (schema : String × Schema) : Option String :=
  match schema.2.type with
  | .array => schema.2.items.bind Field.target?
  | _ => none

/-- A schema is an array of what another array schema describes. -/
def Refers (schema other : String × Schema) : Prop :=
  itemTarget? schema = some other.1 ∧ other.2.type = .array

instance (schema other : String × Schema) : Decidable (Refers schema other) :=
  inferInstanceAs (Decidable (_ ∧ _))

theorem Refers.type_eq {schema other : String × Schema} (refers : Refers schema other) :
    schema.2.type = .array := by
  have isTarget := refers.1
  unfold itemTarget? at isTarget
  split at isTarget
  · assumption
  · contradiction

/-- No array schema refers to one that is declared after it. -/
def ArraysInOrder (schemas : List (String × Schema)) : Prop :=
  schemas.Pairwise fun schema later => ¬ Refers schema later

instance (schemas : List (String × Schema)) : Decidable (ArraysInOrder schemas) :=
  inferInstanceAs (Decidable (List.Pairwise _ _))

/-- The annotation of the items of an array schema. -/
def itemTypeText (schema : String × Schema) : Text :=
  match schema.2.items with
  | some (.object _ _ _) => itemTypeName schema
  | some item => item.annotation
  | none => "Any"

variable {schema : String × Schema}

theorem listAlias?_of_array (isArray : schema.2.type = .array) :
    listAlias? schema = some ⟨typeName schema, listOf (itemTypeText schema)⟩ := by
  unfold listAlias? itemTypeText
  rw [isArray]
  cases schema.2.items with
  | none => rfl
  | some item => cases item <;> rfl

theorem listAlias?_of_ne_array (noArray : schema.2.type ≠ .array) : listAlias? schema = none := by
  unfold listAlias?
  cases isType : schema.2.type with
  | array => exact absurd isType noArray
  | primitive | object => rfl

/-- The items of an array schema name the type of the schema that they come to, or the
record of their own. -/
theorem isMentioned_itemTypeText_iff (isArray : schema.2.type = .array) {name : Text}
    (isType : BeginsLikeType name) (notAny : name ≠ "Any") :
    IsMentioned name (itemTypeText schema) ↔
      (∃ target ∈ itemTarget? schema, name = Text.pascalCase target) ∨
        hasItemRecord schema = true ∧ name = itemTypeName schema := by
  have ofItem {item : Field} (isItem : schema.2.items = some item) :
      itemTarget? schema = item.target? := by
    rw [itemTarget?, isArray, isItem, Option.bind_some]
  unfold itemTypeText hasItemRecord
  cases isItem : schema.2.items with
  | none =>
      change IsMentioned name "Any" ↔ _
      rw [isMentioned_iff_of_not_list (by decide)]
      exact iff_of_false notAny (by simp [itemTarget?, isArray, isItem])
  | some item =>
      rw [ofItem isItem]
      cases item with
      | object properties required notes =>
          change IsMentioned name (itemTypeName schema) ↔ _
          rw [isMentioned_iff_of_not_list (beginsLikeType_itemTypeName schema).notList]
          simp [Field.target?, isArray]
      | primitive | anyArray | array | reference =>
          simp only [isArray, Bool.false_eq_true, false_and, or_false]
          exact Field.isMentioned_annotation_iff isType notAny _

/-! ## Evaluation -/

variable {types known : List Text} {schemas : List (String × Schema)}

/-- What is needed before the aliases of the arrays among some schemas can be evaluated:
all that they name is known, or is one of these arrays. -/
structure Awaits (known : List Text) (schemas : List (String × Schema)) : Prop where
  any : "Any".toList ∈ known
  items : ∀ schema ∈ schemas, hasItemRecord schema = true → itemTypeName schema ∈ known
  apart : ∀ schema ∈ schemas, ¬ Refers schema schema
  targets : ∀ schema ∈ schemas, ∀ target ∈ itemTarget? schema,
    Text.pascalCase target ∈ known ∨ ∃ other ∈ schemas, Refers schema other ∧ other.1 = target

/-- A schema that is no array is not needed. -/
theorem Awaits.of_cons_ne_array (awaits : Awaits known (schema :: schemas))
    (noArray : schema.2.type ≠ .array) : Awaits known schemas := by
  refine ⟨awaits.any, fun other isOther => awaits.items other (List.mem_cons_of_mem _ isOther),
    fun other isOther => awaits.apart other (List.mem_cons_of_mem _ isOther), ?_⟩
  intro other isOther target isTarget
  apply (awaits.targets other (List.mem_cons_of_mem _ isOther) target isTarget).imp_right
  rintro ⟨array, isArray, refers, isName⟩
  rcases List.mem_cons.mp isArray with rfl | inSchemas
  · exact absurd refers.2 noArray
  · exact ⟨array, inSchemas, refers, isName⟩

/-- Once the alias of an array is there, its name is known. -/
theorem Awaits.of_cons (awaits : Awaits known (schema :: schemas)) :
    Awaits (known ++ [typeName schema]) schemas := by
  refine ⟨List.mem_append_left _ awaits.any, fun other isOther hasRecord => ?_,
    fun other isOther => awaits.apart other (List.mem_cons_of_mem _ isOther), ?_⟩
  · exact List.mem_append_left _ (awaits.items other (List.mem_cons_of_mem _ isOther) hasRecord)
  · intro other isOther target isTarget
    rcases awaits.targets other (List.mem_cons_of_mem _ isOther) target isTarget with
      isKnown | ⟨array, isArray, refers, isName⟩
    · exact .inl (List.mem_append_left _ isKnown)
    · rcases List.mem_cons.mp isArray with rfl | inSchemas
      · exact .inl (List.mem_append_right _ (isName ▸ List.mem_singleton_self _))
      · exact .inr ⟨array, inSchemas, refers, isName⟩

/-- All that the first of some arrays names is known if it does not refer to another one. -/
theorem Awaits.mem_known_of_isMentioned (awaits : Awaits known (schema :: schemas))
    (isArray : schema.2.type = .array) (inOrder : ∀ later ∈ schemas, ¬ Refers schema later)
    {name : Text} (isType : BeginsLikeType name)
    (mentioned : IsMentioned name (itemTypeText schema)) : name ∈ known := by
  by_cases isAny : name = "Any"
  · exact isAny ▸ awaits.any
  · rcases (isMentioned_itemTypeText_iff isArray isType isAny).mp mentioned with
      ⟨target, isTarget, rfl⟩ | ⟨hasRecord, rfl⟩
    · rcases awaits.targets schema List.mem_cons_self target isTarget with
        isKnown | ⟨other, isOther, refers, -⟩
      · exact isKnown
      · rcases List.mem_cons.mp isOther with rfl | isLater
        · exact absurd refers (awaits.apart _ List.mem_cons_self)
        · exact absurd refers (inOrder other isLater)
    · exact awaits.items schema List.mem_cons_self hasRecord

theorem evaluable_of_arraysInOrder (areTypes : ∀ name ∈ types, BeginsLikeType name)
    (awaits : Awaits known schemas) (inOrder : ArraysInOrder schemas) :
    TypeAlias.Evaluable types known (schemas.filterMap listAlias?) := by
  induction schemas generalizing known with
  | nil => trivial
  | cons schema schemas ih =>
      obtain ⟨firstInOrder, restInOrder⟩ := List.pairwise_cons.mp inOrder
      by_cases isArray : schema.2.type = .array
      · rw [List.filterMap_cons_some (listAlias?_of_array isArray)]
        refine ⟨fun name isType mentioned => ?_, ih awaits.of_cons restInOrder⟩
        exact awaits.mem_known_of_isMentioned isArray firstInOrder (areTypes name isType)
          ((areTypes name isType).isMentioned_listOf_iff.mp mentioned)
      · rw [List.filterMap_cons_none (listAlias?_of_ne_array isArray)]
        exact ih (awaits.of_cons_ne_array isArray) restInOrder

theorem arraysInOrder_of_evaluable (areTypes : ∀ schema ∈ schemas, typeName schema ∈ types)
    (any : "Any".toList ∈ known)
    (distinct : (known ++ (schemas.filterMap listAlias?).map TypeAlias.name).Nodup)
    (evaluable : TypeAlias.Evaluable types known (schemas.filterMap listAlias?)) :
    ArraysInOrder schemas := by
  induction schemas generalizing known with
  | nil => exact List.Pairwise.nil
  | cons schema schemas ih =>
      obtain ⟨-, restTypes⟩ := List.forall_mem_cons.mp areTypes
      by_cases isArray : schema.2.type = .array
      · rw [List.filterMap_cons_some (listAlias?_of_array isArray)] at distinct evaluable
        obtain ⟨inTime, restInTime⟩ := evaluable
        have restDistinct : (known ++ [typeName schema] ++
            (schemas.filterMap listAlias?).map TypeAlias.name).Nodup := by
          rwa [List.append_assoc]
        refine List.pairwise_cons.mpr ⟨fun later isLater refers => ?_,
          ih restTypes (List.mem_append_left _ any) restDistinct restInTime⟩
        have isName : typeName later ∈ (schemas.filterMap listAlias?).map TypeAlias.name :=
          List.mem_map_of_mem
            (List.mem_filterMap.mpr ⟨later, isLater, listAlias?_of_array refers.2⟩)
        have notKnown : typeName later ∉ known := fun isKnown =>
          List.disjoint_of_nodup_append distinct isKnown (List.mem_cons_of_mem _ isName)
        have notAny : typeName later ≠ "Any" := fun isAny => notKnown (isAny ▸ any)
        have isType := beginsLikeType_typeName later
        have mentioned := (isMentioned_itemTypeText_iff isArray isType notAny).mpr
          (.inl ⟨later.1, refers.1, rfl⟩)
        exact notKnown (inTime _ (restTypes later isLater)
          (isType.isMentioned_listOf_iff.mpr mentioned))
      · rw [List.filterMap_cons_none (listAlias?_of_ne_array isArray)] at distinct evaluable
        refine List.pairwise_cons.mpr ⟨fun later isLater refers => ?_,
          ih restTypes any distinct evaluable⟩
        exact absurd refers.type_eq isArray

end Schema

namespace Api

open Schema

variable {api : Api}

/-- The name of the type of every schema that is no array is there before the aliases of
arrays. -/
theorem typeName_mem_of_ne_array {schema : String × Schema} (isSchema : schema ∈ api.schemas)
    (noArray : schema.2.type ≠ .array) :
    typeName schema ∈ api.namesBeforeAliases ++
      (api.schemas.filterMap singleAlias?).map TypeAlias.name := by
  cases isType : schema.2.type with
  | array => exact absurd isType noArray
  | object =>
      have isRecord : record? schema = some (RecordType.make (typeName schema)
          schema.2.description schema.2.fields schema.2.required) := by
        unfold record?
        rw [isType]
      refine List.mem_append_left _ (List.mem_cons_of_mem _ ?_)
      exact List.mem_map.mpr ⟨_, List.mem_filterMap.mpr ⟨schema, isSchema, isRecord⟩, rfl⟩
  | primitive type =>
      have isAlias : singleAlias? schema = some ⟨typeName schema, type.annotation⟩ := by
        unfold singleAlias?
        rw [isType]
      refine List.mem_append_right _ ?_
      exact List.mem_map.mpr ⟨_, List.mem_filterMap.mpr ⟨schema, isSchema, isAlias⟩, rfl⟩

theorem itemTypeName_mem_of_hasItemRecord {schema : String × Schema}
    (isSchema : schema ∈ api.schemas) (hasRecord : hasItemRecord schema = true) :
    itemTypeName schema ∈ api.namesBeforeAliases := by
  unfold hasItemRecord at hasRecord
  split at hasRecord
  next properties required notes isArray isItem =>
    have isRecord : record? schema = some (RecordType.make (itemTypeName schema)
        schema.2.description properties required) := by
      unfold record?
      rw [isArray, isItem]
    apply List.mem_cons_of_mem
    exact List.mem_map.mpr ⟨_, List.mem_filterMap.mpr ⟨schema, isSchema, isRecord⟩, rfl⟩
  next => contradiction

theorem evaluable_singleAliases (types known : List Text)
    (areTypes : ∀ name ∈ types, BeginsLikeType name) (schemas : List (String × Schema)) :
    TypeAlias.Evaluable types known (schemas.filterMap singleAlias?) := by
  induction schemas generalizing known with
  | nil => trivial
  | cons schema schemas ih =>
      cases isAlias : singleAlias? schema with
      | none =>
          rw [List.filterMap_cons_none isAlias]
          exact ih known
      | some given =>
          rw [List.filterMap_cons_some isAlias]
          refine ⟨fun name isType mentioned => absurd mentioned ?_, ih _⟩
          unfold singleAlias? at isAlias
          split at isAlias
          next type _ =>
            obtain rfl := Option.some.inj isAlias
            exact type.not_isMentioned (areTypes name isType)
          next => contradiction

/-- A schema of a closed API does not come to itself. -/
theorem Closed.of_mem_itemTarget? (closed : api.Closed) {schema : String × Schema}
    (isSchema : schema ∈ api.schemas) {target : String} (isTarget : target ∈ itemTarget? schema) :
    target ∈ Entries.keys api.schemas ∧ target ≠ schema.1 := by
  have isClosed := closed.schemas schema isSchema
  rw [Schema.Closed] at isClosed
  unfold itemTarget? at isTarget
  cases isType : schema.2.type with
  | array =>
      rw [isType] at isTarget isClosed
      obtain ⟨item, isItem, isTarget⟩ := Option.bind_eq_some_iff.mp isTarget
      exact (isClosed item isItem).of_mem_target? target isTarget
  | object | primitive =>
      rw [isType] at isTarget
      contradiction

theorem Closed.awaits (closed : api.Closed) :
    Awaits (api.namesBeforeAliases ++ (api.schemas.filterMap singleAlias?).map TypeAlias.name)
      api.schemas := by
  refine ⟨List.mem_append_left _ List.mem_cons_self, fun schema isSchema hasRecord =>
    List.mem_append_left _ (itemTypeName_mem_of_hasItemRecord isSchema hasRecord), ?_, ?_⟩
  · exact fun schema isSchema refers => (closed.of_mem_itemTarget? isSchema refers.1).2 rfl
  · intro schema isSchema target isTarget
    obtain ⟨isKey, -⟩ := closed.of_mem_itemTarget? isSchema isTarget
    obtain ⟨other, isOther, rfl⟩ := List.mem_map.mp isKey
    by_cases isArray : other.2.type = .array
    · exact .inr ⟨other, isOther, ⟨isTarget, isArray⟩, rfl⟩
    · exact .inl (typeName_mem_of_ne_array isOther isArray)

theorem isEvaluable_of_arraysInOrder (closed : api.Closed) (inOrder : ArraysInOrder api.schemas) :
    api.IsEvaluable := by
  have areTypes : ∀ name ∈ api.typeNames, BeginsLikeType name :=
    fun name => beginsLikeType_of_mem_typeNames
  apply TypeAlias.evaluable_append.mpr
  exact ⟨evaluable_singleAliases _ _ areTypes _,
    evaluable_of_arraysInOrder areTypes closed.awaits inOrder⟩

theorem arraysInOrder_of_isEvaluable (distinct : ("Any".toList :: api.typeNames).Nodup)
    (isEvaluable : api.IsEvaluable) : ArraysInOrder api.schemas := by
  obtain ⟨-, lists⟩ := TypeAlias.evaluable_append.mp isEvaluable
  apply arraysInOrder_of_evaluable (fun schema isSchema => typeName_mem_typeNames isSchema)
    (List.mem_append_left _ List.mem_cons_self) _ lists
  rw [typeNames, aliases, List.map_append, ← List.append_assoc] at distinct
  exact distinct

end Api

/-! ## Accepted definitions -/

open Schema Normalize

theorem itemTarget?_completeSchema (name : String) {schema : Schema}
    (bare : schema.type = .array → schema.fields ≠ [] →
      ∀ item ∈ schema.items, ∃ required notes, item = .object [] required notes) :
    itemTarget? (name, completeSchema schema) = itemTarget? (name, schema) := by
  cases isType : schema.type with
  | primitive | object => simp [itemTarget?, completeSchema, isType]
  | array =>
      by_cases noFields : schema.fields = []
      · cases isItem : schema.items <;>
          simp [itemTarget?, completeSchema, isType, noFields, isItem, Field.target?_completeField]
      · obtain ⟨isArray, -, -, properties, notes, isFolded, -, -⟩ :=
          folded_completeSchema isType noFields (bare isType noFields)
        have noTarget : schema.items.bind Field.target? = none := by
          refine Option.bind_eq_none_iff.mpr fun item isItem => ?_
          obtain ⟨required, itemNotes, rfl⟩ := bare isType noFields item isItem
          rfl
        simp only [itemTarget?, isArray, isFolded, isType, noTarget]
        rfl

/-- The aliases of accepted definitions can be evaluated if no array schema refers to one
that is declared after it, and where the types have distinct names they can be evaluated
only then. -/
theorem isEvaluable_of_normalize {heading : Heading} {definitions : List Definition} {api : Api}
    (named : ∀ definition ∈ definitions, ∀ entry ∈ definition.schemas, entry.2.name = entry.1)
    (isApi : normalize heading definitions = .ok api) :
    let declared := definitions.flatMap Definition.schemas
    (ArraysInOrder declared → api.IsEvaluable) ∧
      (("Any".toList :: api.typeNames).Nodup → (api.IsEvaluable ↔ ArraysInOrder declared)) := by
  intro declared
  have inOrder_iff : ArraysInOrder api.schemas ↔ ArraysInOrder declared := by
    rw [Api.schemas_of_normalize isApi, ArraysInOrder, List.pairwise_map]
    refine List.Pairwise.iff_of_mem fun {schema other} isSchema _ => not_congr ?_
    rw [Refers, Refers, type_completeSchema,
      itemTarget?_completeSchema schema.1 (bareItems_of_normalize isApi isSchema)]
  have closed := closed_of_normalize named isApi
  constructor
  · exact fun inOrder => Api.isEvaluable_of_arraysInOrder closed (inOrder_iff.mpr inOrder)
  · intro distinct
    constructor
    · intro isEvaluable
      exact inOrder_iff.mp (Api.arraysInOrder_of_isEvaluable distinct isEvaluable)
    · exact fun inOrder => Api.isEvaluable_of_arraysInOrder closed (inOrder_iff.mpr inOrder)

/-- A definition file with an array of arrays after the array that it refers to. -/
def rowsFirstFile : SourceText :=
  ⟨"grid.toml", Text.ofLines [
    "[schemas.row]", "type = \"array\"", "items = \"integer\"",
    "[schemas.matrix]", "type = \"array\"", "items = \x7b schema = \"row\" \x7d"]⟩

/-- The aliases of the file can be evaluated. -/
theorem isEvaluable_of_rowsFirstFile :
    ∃ definitions api, Definition.readAll [rowsFirstFile] = .ok definitions ∧
      normalize {} definitions = .ok api ∧
      api.aliases = [⟨"Row", "list[int]"⟩, ⟨"Matrix", "list[Row]"⟩] ∧ api.IsEvaluable := by
  have evaluated : ((Definition.readAll [rowsFirstFile]).toOption.any fun definitions =>
      (normalize {} definitions).toOption.any fun api =>
        decide (api.aliases = [⟨"Row", "list[int]"⟩, ⟨"Matrix", "list[Row]"⟩]) &&
        decide (("Any".toList :: api.typeNames).Nodup) &&
        decide (ArraysInOrder (definitions.flatMap Definition.schemas))) = true := by
    decide +kernel
  obtain ⟨definitions, areRead, evaluated⟩ := exists_of_any_toOption evaluated
  obtain ⟨api, isApi, evaluated⟩ := exists_of_any_toOption evaluated
  simp only [Bool.and_eq_true, decide_eq_true_eq] at evaluated
  obtain ⟨⟨areAliases, distinct⟩, inOrder⟩ := evaluated
  obtain ⟨-, isEvaluable_iff⟩ :=
    isEvaluable_of_normalize (Definition.named_of_readAll areRead) isApi
  exact ⟨definitions, api, areRead, isApi, areAliases, (isEvaluable_iff distinct).mpr inOrder⟩

/-- A definition file with an array of arrays before the array that it refers to. -/
def matrixFirstFile : SourceText :=
  ⟨"grid.toml", Text.ofLines [
    "[schemas.matrix]", "type = \"array\"", "items = \x7b schema = \"row\" \x7d",
    "[schemas.row]", "type = \"array\"", "items = \"integer\""]⟩

/-- The first alias of the file uses the second one, although no cycle is declared: the
other way around the arrays are in order. -/
theorem not_isEvaluable_of_matrixFirstFile :
    ∃ definitions api, Definition.readAll [matrixFirstFile] = .ok definitions ∧
      normalize {} definitions = .ok api ∧
      ArraysInOrder (definitions.flatMap Definition.schemas).reverse ∧
      api.records = [] ∧ api.aliases = [⟨"Matrix", "list[Row]"⟩, ⟨"Row", "list[int]"⟩] ∧
      ¬ api.IsEvaluable := by
  have evaluated : ((Definition.readAll [matrixFirstFile]).toOption.any fun definitions =>
      (normalize {} definitions).toOption.any fun api =>
        decide (ArraysInOrder (definitions.flatMap Definition.schemas).reverse) &&
        decide (api.records = []) &&
        decide (api.aliases = [⟨"Matrix", "list[Row]"⟩, ⟨"Row", "list[int]"⟩])) = true := by
    decide +kernel
  obtain ⟨definitions, areRead, evaluated⟩ := exists_of_any_toOption evaluated
  obtain ⟨api, isApi, evaluated⟩ := exists_of_any_toOption evaluated
  simp only [Bool.and_eq_true, decide_eq_true_eq] at evaluated
  obtain ⟨⟨inOrder, noRecords⟩, areAliases⟩ := evaluated
  refine ⟨definitions, api, areRead, isApi, inOrder, noRecords, areAliases, ?_⟩
  rw [Api.IsEvaluable, Api.typeNames, Api.namesBeforeAliases, noRecords, areAliases]
  rintro ⟨inTime, -⟩
  have isKnown := inTime "Row" (by decide) (.list .self)
  exact absurd isKnown (by decide)

end ApiWorkshop
