import ApiWorkshop.Proofs.Entries
import ApiWorkshop.Proofs.Number.Rounded
import ApiWorkshop.Value.Basic

/-!
# Regular values

A value is regular if no table in it has a key twice and every scalar in it is
an allowed one.  What all scalars of a value have in common is said without a
condition on its keys.
-/

namespace ApiWorkshop

/-- A value with distinct keys in its tables and only allowed scalars, at any
depth. -/
inductive Value.Regular (allowed : Scalar → Prop) : Value → Prop
  | scalar {part : Scalar} (isAllowed : allowed part) : Regular allowed (.scalar part)
  | array {items : List Value} (areRegular : ∀ item ∈ items, Regular allowed item) :
      Regular allowed (.array items)
  | table {entries : List (String × Value)} (distinct : (Entries.keys entries).Nodup)
      (areRegular : ∀ entry ∈ entries, Regular allowed entry.2) : Regular allowed (.table entries)

/-- A value all of whose scalars obey a rule, at any depth. -/
inductive Value.All (rule : Scalar → Prop) : Value → Prop
  | scalar {part : Scalar} (obeys : rule part) : All rule (.scalar part)
  | array {items : List Value} (obey : ∀ item ∈ items, All rule item) : All rule (.array items)
  | table {entries : List (String × Value)} (obey : ∀ entry ∈ entries, All rule entry.2) :
      All rule (.table entries)

/-- A scalar as a definition file can hold it. -/
def Scalar.IsRead : Scalar → Prop
  | .null => False
  | .float value => value.IsRounded
  | _ => True

/-- Whether a scalar is a date or a clock time. -/
def Scalar.isDated : Scalar → Bool
  | .dateTime _ => true
  | .date _ => true
  | .time _ => true
  | _ => false

namespace Value

variable {allowed : Scalar → Prop}

theorem Regular.imp {weaker : Scalar → Prop} (isWeaker : ∀ part, allowed part → weaker part)
    {value : Value} (regular : value.Regular allowed) : value.Regular weaker := by
  induction regular with
  | scalar isAllowed => exact .scalar (isWeaker _ isAllowed)
  | array _ ih => exact .array ih
  | table distinct _ ih => exact .table distinct ih

theorem Regular.items {items : List Value} (regular : (Value.array items).Regular allowed) :
    ∀ item ∈ items, item.Regular allowed := by
  cases regular with
  | array areRegular => exact areRegular

theorem Regular.distinct {entries : List (String × Value)}
    (regular : (Value.table entries).Regular allowed) : (Entries.keys entries).Nodup := by
  cases regular with
  | table distinct areRegular => exact distinct

theorem Regular.entries {entries : List (String × Value)}
    (regular : (Value.table entries).Regular allowed) :
    ∀ entry ∈ entries, entry.2.Regular allowed := by
  cases regular with
  | table distinct areRegular => exact areRegular

theorem Regular.get? {entries : List (String × Value)}
    (regular : (Value.table entries).Regular allowed) {key : String} {value : Value}
    (isValue : Entries.get? key entries = some value) : value.Regular allowed :=
  regular.entries _ (Entries.mem_of_get? isValue)

theorem Regular.filter {entries : List (String × Value)}
    (regular : (Value.table entries).Regular allowed) (keep : String × Value → Bool) :
    (Value.table (entries.filter keep)).Regular allowed :=
  .table (Entries.nodup_keys_filter keep regular.distinct) fun entry member =>
    regular.entries entry (List.mem_filter.mp member).1

theorem Regular.put {entries : List (String × Value)}
    (regular : (Value.table entries).Regular allowed) {value : Value}
    (isRegular : value.Regular allowed) (key : String) :
    (Value.table (Entries.put key value entries)).Regular allowed := by
  refine .table (Entries.nodup_keys_put regular.distinct) fun entry member => ?_
  rcases Entries.mem_put member with rfl | inEntries
  · exact isRegular
  · exact regular.entries entry inEntries

/-! ## Rules for all scalars -/

section Rules

variable {rule other : Scalar → Prop}

@[simp]
theorem all_scalar_iff {part : Scalar} : (Value.scalar part).All rule ↔ rule part :=
  ⟨fun | .scalar obeys => obeys, .scalar⟩

@[simp]
theorem all_array_iff {items : List Value} :
    (Value.array items).All rule ↔ ∀ item ∈ items, item.All rule :=
  ⟨fun | .array obey => obey, .array⟩

theorem all_table_iff {entries : List (String × Value)} :
    (Value.table entries).All rule ↔ ∀ entry ∈ entries, entry.2.All rule :=
  ⟨fun | .table obey => obey, .table⟩

theorem All.imp (isWeaker : ∀ part, rule part → other part) {value : Value}
    (obeys : value.All rule) : value.All other := by
  induction obeys with
  | scalar obeys => exact .scalar (isWeaker _ obeys)
  | array _ ih => exact .array ih
  | table _ ih => exact .table ih

theorem all_and_iff {value : Value} :
    value.All (fun part => rule part ∧ other part) ↔ value.All rule ∧ value.All other := by
  constructor
  · exact fun obeys => ⟨obeys.imp fun _ => And.left, obeys.imp fun _ => And.right⟩
  · rintro ⟨first, second⟩
    induction first with
    | scalar obeys => exact .scalar ⟨obeys, all_scalar_iff.mp second⟩
    | array _ ih =>
        exact .array fun item member => ih item member (all_array_iff.mp second item member)
    | table _ ih =>
        exact .table fun entry member => ih entry member (all_table_iff.mp second entry member)

theorem Regular.all {value : Value} (regular : value.Regular allowed) : value.All allowed := by
  induction regular with
  | scalar isAllowed => exact .scalar isAllowed
  | array _ ih => exact .array ih
  | table _ _ ih => exact .table ih

theorem Regular.and {value : Value} (regular : value.Regular allowed) (obeys : value.All rule) :
    value.Regular fun part => allowed part ∧ rule part := by
  induction regular with
  | scalar isAllowed => exact .scalar ⟨isAllowed, all_scalar_iff.mp obeys⟩
  | array _ ih => exact .array fun item member => ih item member (all_array_iff.mp obeys item member)
  | table distinct _ ih =>
      exact .table distinct fun entry member => ih entry member (all_table_iff.mp obeys entry member)

end Rules

/-! ## Values without dates -/

theorem plainItems_eq_map (items : List Value) : plainItems items = items.map plain := by
  induction items with
  | nil => rfl
  | cons item items ih => rw [plainItems, ih, List.map_cons]

theorem plainEntries_eq_map (entries : List (String × Value)) :
    plainEntries entries = entries.map fun entry => (entry.1, plain entry.2) := by
  induction entries with
  | nil => rfl
  | cons entry entries ih => rw [plainEntries, ih, List.map_cons]

/-- A value with its dates as text has no dates. -/
theorem regular_plain {value : Value} (regular : value.Regular Scalar.IsRead) :
    value.plain.Regular fun part => part.IsRead ∧ part.isDated = false := by
  induction regular with
  | @scalar part isRead =>
      cases part with
      | null => exact isRead.elim
      | dateTime _ | date _ | time _ => exact .scalar ⟨trivial, rfl⟩
      | bool _ | int _ | float _ | string _ => exact .scalar ⟨isRead, rfl⟩
  | array _ ih =>
      rw [plain, plainItems_eq_map]
      exact .array (List.forall_mem_map.mpr ih)
  | table distinct _ ih =>
      rw [plain, plainEntries_eq_map]
      refine .table ?_ (List.forall_mem_map.mpr ih)
      rwa [Entries.keys, List.map_map]

end Value

end ApiWorkshop
