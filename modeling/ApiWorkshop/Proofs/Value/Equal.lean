import ApiWorkshop.Proofs.Value.Regular
import ApiWorkshop.Value.Equality
import Mathlib.Data.List.Nodup
import Mathlib.Data.List.Perm.Subperm

/-!
# Equal values

Two values are equal when they are of one kind and mean the same: arrays item by
item, tables key by key in whatever order, integers and floating-point numbers as
numbers.  Comparing values as members of a list agrees with this but for truth
values inside arrays and tables, which count as numbers there.
-/

namespace ApiWorkshop

namespace Scalar

/-- Scalars of one kind with the same value.  Integers and floating-point numbers are
one kind, and truth values are another. -/
def Equal : Scalar → Scalar → Prop
  | .null, .null => True
  | .bool first, .bool second => first = second
  | .int first, .int second => first = second
  | .int first, .float second => second.sameAsInt first
  | .float first, .int second => first.sameAsInt second
  | .float first, .float second => first.sameValue second
  | .string first, .string second => first = second
  | .dateTime first, .dateTime second => sameDateTime first second
  | .date first, .date second => first = second
  | .time first, .time second => first = second
  | _, _ => False

def isBool : Scalar → Bool
  | .bool _ => true
  | _ => false

/-- A scalar with a truth value as the number that it counts as. -/
def counted : Scalar → Scalar
  | .bool value => .int (if value then 1 else 0)
  | other => other

/-- Scalars that are equal when truth values count as numbers. -/
def Alike (first second : Scalar) : Prop :=
  first.counted.Equal second.counted

theorem matchesScalar_iff_alike (first second : Scalar) :
    first.matchesScalar second = true ↔ first.Alike second := by
  cases first <;> cases second <;>
    simp [matchesScalar, Alike, counted, Equal, number?, Number.same]

theorem alike_iff_equal {first second : Scalar} (sameKind : first.isBool = second.isBool) :
    first.Alike second ↔ first.Equal second := by
  cases first with
  | bool value =>
      cases second with
      | bool other => cases value <;> cases other <;> simp [Alike, counted, Equal]
      | _ => contradiction
  | _ =>
      cases second with
      | bool other => contradiction
      | _ => rfl

theorem isBool_eq_of_equal {first second : Scalar} (equal : first.Equal second) :
    first.isBool = second.isBool := by
  cases first <;> cases second <;> first | rfl | exact equal.elim

end Scalar

namespace Value

/-- Values of the same shape whose scalars are equal in some sense: arrays item by
item, tables with the same keys in whatever order. -/
inductive EqualBy (same : Scalar → Scalar → Prop) : Value → Value → Prop
  | scalar {first second : Scalar} (areSame : same first second) :
      EqualBy same (.scalar first) (.scalar second)
  | array {firsts seconds : List Value} (sameLength : firsts.length = seconds.length)
      (sameItems : ∀ (index : Nat) (first second : Value), firsts[index]? = some first →
        seconds[index]? = some second → EqualBy same first second) :
      EqualBy same (.array firsts) (.array seconds)
  | table {firsts seconds : List (String × Value)}
      (sameKeys : (Entries.keys firsts).Perm (Entries.keys seconds))
      (sameValues : ∀ (key : String) (first second : Value), (key, first) ∈ firsts →
        (key, second) ∈ seconds → EqualBy same first second) :
      EqualBy same (.table firsts) (.table seconds)

/-- Equal values: of one kind at every depth and with the same meaning. -/
abbrev Equal : Value → Value → Prop :=
  EqualBy Scalar.Equal

/-- Values that match as members of a list.  Scalars have to be equal; inside arrays
and tables a truth value counts as a number. -/
def Matches : Value → Value → Prop
  | .scalar first, .scalar second => first.Equal second
  | first, second => EqualBy Scalar.Alike first second

/-- No truth value stands inside an array or a table. -/
def HasNoInnerBool : Value → Prop
  | .scalar _ => True
  | value => value.All fun part => part.isBool = false

variable {same weaker rule : Scalar → Scalar → Prop}

theorem EqualBy.imp (isWeaker : ∀ first second, same first second → weaker first second)
    {first second : Value} (equal : EqualBy same first second) : EqualBy weaker first second := by
  induction equal with
  | scalar areSame => exact .scalar (isWeaker _ _ areSame)
  | array sameLength _ ih => exact .array sameLength ih
  | table sameKeys _ ih => exact .table sameKeys ih

/-- Without truth values it does not matter whether they count as numbers. -/
theorem EqualBy.equal {first second : Value} (alike : EqualBy Scalar.Alike first second)
    (noBool : first.All fun part => part.isBool = false)
    (noOtherBool : second.All fun part => part.isBool = false) : first.Equal second := by
  induction alike with
  | scalar areAlike =>
      have sameKind := (all_scalar_iff.mp noBool).trans (all_scalar_iff.mp noOtherBool).symm
      exact .scalar ((Scalar.alike_iff_equal sameKind).mp areAlike)
  | array sameLength _ ih =>
      refine .array sameLength fun index first second isFirst isSecond => ?_
      exact ih index first second isFirst isSecond
        (all_array_iff.mp noBool first (List.mem_of_getElem? isFirst))
        (all_array_iff.mp noOtherBool second (List.mem_of_getElem? isSecond))
  | table sameKeys _ ih =>
      refine .table sameKeys fun key first second isFirst isSecond => ?_
      exact ih key first second isFirst isSecond (all_table_iff.mp noBool _ isFirst)
        (all_table_iff.mp noOtherBool _ isSecond)

theorem Equal.matches {first second : Value} (equal : first.Equal second) :
    first.Matches second := by
  have areAlike : ∀ first second : Scalar, first.Equal second → first.Alike second :=
    fun first second isEqual =>
      (Scalar.alike_iff_equal (Scalar.isBool_eq_of_equal isEqual)).mpr isEqual
  cases equal with
  | scalar areSame => exact areSame
  | array sameLength sameItems => exact (EqualBy.array sameLength sameItems).imp areAlike
  | table sameKeys sameValues => exact (EqualBy.table sameKeys sameValues).imp areAlike

theorem matches_iff {first second : Value} :
    first.Matches second ↔ first.isBool = second.isBool ∧
      EqualBy Scalar.Alike first second := by
  have isBool_scalar (part : Scalar) : (Value.scalar part).isBool = part.isBool := by
    cases part <;> rfl
  cases first with
  | scalar part =>
      cases second with
      | scalar other =>
          rw [isBool_scalar, isBool_scalar]
          constructor
          · intro isEqual
            have sameKind := Scalar.isBool_eq_of_equal isEqual
            exact ⟨sameKind, .scalar ((Scalar.alike_iff_equal sameKind).mpr isEqual)⟩
          · rintro ⟨sameKind, ⟨areAlike⟩⟩
            exact (Scalar.alike_iff_equal sameKind).mp areAlike
      | array _ | table _ => exact iff_of_false nofun nofun
  | array items =>
      cases second with
      | scalar _ | table _ => exact iff_of_false nofun nofun
      | array _ => exact (and_iff_right rfl).symm
  | table entries =>
      cases second with
      | scalar _ | array _ => exact iff_of_false nofun nofun
      | table _ => exact (and_iff_right rfl).symm

/-- Values without truth values inside them match exactly if they are equal. -/
theorem matches_iff_equal {first second : Value} (noBool : first.HasNoInnerBool)
    (noOtherBool : second.HasNoInnerBool) : first.Matches second ↔ first.Equal second := by
  refine ⟨fun isMatch => ?_, Equal.matches⟩
  cases first with
  | scalar part =>
      cases second with
      | scalar other => exact .scalar isMatch
      | array _ | table _ => contradiction
  | array items =>
      cases second with
      | array others => exact EqualBy.equal isMatch noBool noOtherBool
      | scalar _ | table _ => contradiction
  | table entries =>
      cases second with
      | table others => exact EqualBy.equal isMatch noBool noOtherBool
      | scalar _ | array _ => contradiction

theorem equalBy_array_cons_iff {first second : Value} {firsts seconds : List Value} :
    EqualBy same (.array (first :: firsts)) (.array (second :: seconds)) ↔
      EqualBy same first second ∧ EqualBy same (.array firsts) (.array seconds) := by
  constructor
  · rintro (_ | ⟨sameLength, sameItems⟩)
    exact ⟨sameItems 0 first second rfl rfl, .array (Nat.succ.inj sameLength)
      fun index other another isOther isAnother =>
        sameItems (index + 1) other another isOther isAnother⟩
  · rintro ⟨equal, _ | ⟨sameLength, sameItems⟩⟩
    refine .array (congrArg Nat.succ sameLength) fun index other another isOther isAnother => ?_
    cases index with
    | zero =>
        obtain rfl := Option.some.inj isOther
        obtain rfl := Option.some.inj isAnother
        exact equal
    | succ index => exact sameItems index other another isOther isAnother

/-- Tables with distinct keys are equal if they have as many entries and the value of
each one is found under its key in the other table. -/
theorem equalBy_table_iff {firsts seconds : List (String × Value)}
    (distinct : (Entries.keys firsts).Nodup) (otherDistinct : (Entries.keys seconds).Nodup) :
    EqualBy same (.table firsts) (.table seconds) ↔ firsts.length = seconds.length ∧
      ∀ entry ∈ firsts, ∃ other, Entries.get? entry.1 seconds = some other ∧
        EqualBy same entry.2 other := by
  constructor
  · rintro (_ | _ | ⟨sameKeys, sameValues⟩)
    refine ⟨by simpa [Entries.keys] using sameKeys.length_eq, fun entry member => ?_⟩
    have inKeys : entry.1 ∈ Entries.keys seconds :=
      sameKeys.subset (List.mem_map_of_mem member)
    obtain ⟨other, isFound⟩ := Option.isSome_iff_exists.mp (Entries.isSome_get?_of_mem_keys inKeys)
    exact ⟨other, isFound, sameValues entry.1 entry.2 other member (Entries.mem_of_get? isFound)⟩
  · rintro ⟨sameLength, areFound⟩
    have subset : Entries.keys firsts ⊆ Entries.keys seconds := by
      intro key inKeys
      obtain ⟨entry, member, rfl⟩ := List.mem_map.mp inKeys
      obtain ⟨other, isFound, -⟩ := areFound entry member
      exact Entries.mem_keys_of_get? isFound
    refine .table ?_ fun key first second isFirst isSecond => ?_
    · exact (List.subperm_of_subset distinct subset).perm_of_length_le
        (by simp [Entries.keys, sameLength])
    · obtain ⟨other, isFound, equal⟩ := areFound (key, first) isFirst
      rw [Entries.get?_of_mem otherDistinct isSecond] at isFound
      exact Option.some.inj isFound ▸ equal

/-! ## Comparing decides equality -/

section Comparing

variable {allowed permitted : Scalar → Prop}

mutual

theorem sameAs_iff : ∀ {first second : Value}, first.Regular allowed →
    second.Regular permitted →
      (first.sameAs second = true ↔ EqualBy Scalar.Alike first second)
  | .scalar first, .scalar second, _, _ => by
      rw [sameAs, Scalar.matchesScalar_iff_alike]
      exact ⟨.scalar, fun | .scalar areSame => areSame⟩
  | .array firsts, .array seconds, areFirsts, areSeconds => by
      rw [sameAs, sameItems_iff areFirsts.items areSeconds.items]
  | .table firsts, .table seconds, areFirsts, areSeconds => by
      rw [sameAs, Bool.and_eq_true, beq_iff_eq,
        sameEntries_iff areFirsts.entries areSeconds.entries,
        equalBy_table_iff areFirsts.distinct areSeconds.distinct]
  | .scalar _, .array _, _, _ => iff_of_false nofun nofun
  | .scalar _, .table _, _, _ => iff_of_false nofun nofun
  | .array _, .scalar _, _, _ => iff_of_false nofun nofun
  | .array _, .table _, _, _ => iff_of_false nofun nofun
  | .table _, .scalar _, _, _ => iff_of_false nofun nofun
  | .table _, .array _, _, _ => iff_of_false nofun nofun

theorem sameItems_iff : ∀ {firsts seconds : List Value},
    (∀ item ∈ firsts, item.Regular allowed) → (∀ item ∈ seconds, item.Regular permitted) →
      (sameItems firsts seconds = true ↔
        EqualBy Scalar.Alike (.array firsts) (.array seconds))
  | [], [], _, _ => iff_of_true rfl (.array rfl (by simp))
  | [], _ :: _, _, _ => iff_of_false nofun fun | .array sameLength _ => nomatch sameLength
  | _ :: _, [], _, _ => iff_of_false nofun fun | .array sameLength _ => nomatch sameLength
  | first :: firsts, second :: seconds, areFirsts, areSeconds => by
      obtain ⟨isFirst, restFirsts⟩ := List.forall_mem_cons.mp areFirsts
      obtain ⟨isSecond, restSeconds⟩ := List.forall_mem_cons.mp areSeconds
      rw [sameItems, Bool.and_eq_true, sameAs_iff isFirst isSecond,
        sameItems_iff restFirsts restSeconds, equalBy_array_cons_iff]

theorem sameEntries_iff : ∀ {entries others : List (String × Value)},
    (∀ entry ∈ entries, entry.2.Regular allowed) → (∀ entry ∈ others, entry.2.Regular permitted) →
      (sameEntries entries others = true ↔ ∀ entry ∈ entries, ∃ other,
        Entries.get? entry.1 others = some other ∧ EqualBy Scalar.Alike entry.2 other)
  | [], _, _, _ => by simp [sameEntries]
  | (key, value) :: entries, others, areEntries, areOthers => by
      obtain ⟨isValue, restEntries⟩ := List.forall_mem_cons.mp areEntries
      rw [sameEntries, Bool.and_eq_true, sameEntries_iff restEntries areOthers,
        List.forall_mem_cons]
      refine and_congr_left fun _ => ?_
      cases isFound : Entries.get? key others with
      | none => simp
      | some other =>
          simp [sameAs_iff isValue (areOthers _ (Entries.mem_of_get? isFound))]

end

/-- A value is a member of a list exactly if it matches one of its values. -/
theorem isMember_iff {members : List Value} {value : Value}
    (areMembers : ∀ member ∈ members, member.Regular allowed) (isValue : value.Regular permitted) :
    value.isMember members = true ↔ ∃ member ∈ members, member.Matches value := by
  rw [isMember, List.any_eq_true]
  refine exists_congr fun member => and_congr_right fun inMembers => ?_
  rw [Bool.and_eq_true, beq_iff_eq, sameAs_iff (areMembers member inMembers) isValue, matches_iff]

end Comparing

/-! ## Values without dates -/

theorem plain_of_undated {value : Value} (undated : value.All fun part => part.isDated = false) :
    value.plain = value := by
  induction undated with
  | @scalar part obeys => cases part <;> first | rfl | contradiction
  | @array items _ ih =>
      rw [plain, plainItems_eq_map, List.map_congr_left ih, List.map_id']
  | @table entries _ ih =>
      have kept : ∀ entry ∈ entries, (entry.1, plain entry.2) = entry :=
        fun entry member => by rw [ih entry member]
      rw [plain, plainEntries_eq_map, List.map_congr_left kept, List.map_id']

end Value

end ApiWorkshop
