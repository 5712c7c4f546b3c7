import Mathlib.Data.List.Basic
import Mathlib.Data.List.Induction
import Mathlib.Data.List.Nodup
import ApiWorkshop.Proofs.Entries

/-!
# Entries grouped by a key

Putting items one after the other under two keys groups them.  As long as no two
items share both keys, nothing is replaced: the outer keys stand in the order in
which they first came, and under each of them all of its items stand in order.
-/

namespace ApiWorkshop

namespace Entries

variable {γ κ ι α : Type} [DecidableEq κ] {outer : γ → κ} {inner : γ → ι}
  {value : γ → α} {items : List γ}

/-- The items with an outer key, in order, under their inner keys. -/
def group (outer : γ → κ) (inner : γ → ι) (value : γ → α) (items : List γ) (key : κ) :
    Entries ι α :=
  (items.filter fun item => outer item = key).map fun item => (inner item, value item)

/-- All items by their outer keys, these in the order in which they first came. -/
def grouped (outer : γ → κ) (inner : γ → ι) (value : γ → α) (items : List γ) :
    Entries κ (Entries ι α) :=
  (items.map outer).eraseDups.map fun key => (key, group outer inner value items key)

theorem keys_grouped (outer : γ → κ) (inner : γ → ι) (value : γ → α) (items : List γ) :
    keys (grouped outer inner value items) = (items.map outer).eraseDups := by
  simp [grouped, keys, Function.comp_def]

theorem keys_group (outer : γ → κ) (inner : γ → ι) (value : γ → α) (items : List γ) (key : κ) :
    keys (group outer inner value items key) =
      (items.filter fun item => outer item = key).map inner := by
  simp [group, keys, Function.comp_def]

theorem mem_group {item : γ} (isItem : item ∈ items) :
    (inner item, value item) ∈ group outer inner value items (outer item) :=
  List.mem_map_of_mem (f := fun item => (inner item, value item))
    (List.mem_filter.mpr ⟨isItem, decide_eq_true rfl⟩)

/-- Among items that do not share both keys those of one group differ in their inner keys. -/
theorem nodup_keys_group (distinct : (items.map fun item => (outer item, inner item)).Nodup)
    (key : κ) : (keys (group outer inner value items key)).Nodup := by
  have inGroup := distinct.sublist
    ((List.filter_sublist (p := fun item => decide (outer item = key))).map _)
  rw [keys_group]
  refine List.Nodup.of_map (Prod.mk key) ?_
  rw [List.map_map]
  convert inGroup using 1
  refine List.map_congr_left fun item isInGroup => ?_
  exact Prod.ext (of_decide_eq_true (List.mem_filter.mp isInGroup).2).symm rfl

theorem group_eq_nil {key : κ} (isNew : key ∉ items.map outer) :
    group outer inner value items key = [] := by
  rw [group, List.map_eq_nil_iff, List.filter_eq_nil_iff]
  rintro item isItem sameKey
  exact isNew (List.mem_map.mpr ⟨item, isItem, of_decide_eq_true sameKey⟩)

theorem group_append (first second : List γ) (key : κ) :
    group outer inner value (first ++ second) key =
      group outer inner value first key ++ group outer inner value second key := by
  rw [group, List.filter_append, List.map_append]
  rfl

theorem group_concat_self (items : List γ) (last : γ) :
    group outer inner value (items ++ [last]) (outer last) =
      group outer inner value items (outer last) ++ [(inner last, value last)] := by
  rw [group_append]
  simp [group]

theorem group_concat_of_ne {key : κ} {last : γ} (different : key ≠ outer last) (items : List γ) :
    group outer inner value (items ++ [last]) key = group outer inner value items key := by
  rw [group_append]
  simp [group, different.symm]

/-- Under an outer key that did not come there is no entry, and else all of its items. -/
theorem get?_grouped (key : κ) :
    get? key (grouped outer inner value items) =
      if key ∈ items.map outer then some (group outer inner value items key) else none := by
  have found := get?_filterMap (fun key => some (group outer inner value items key))
    (items.map outer).eraseDups key
  simpa [grouped, List.filterMap_eq_map', List.mem_eraseDups] using found

theorem getD_get?_grouped (key : κ) :
    (get? key (grouped outer inner value items)).getD [] = group outer inner value items key := by
  rw [get?_grouped]
  split
  · rfl
  next isNew => exact (group_eq_nil isNew).symm

/-- Putting a value under one of the names that entries are made of replaces it there. -/
theorem put_map_of_mem {names : List κ} (distinct : names.Nodup) (found : κ → α) {key : κ}
    (member : key ∈ names) (new : α) :
    put key new (names.map fun name => (name, found name)) =
      names.map fun name => (name, if name = key then new else found name) := by
  induction names with
  | nil => simp at member
  | cons name names ih =>
      obtain ⟨isNew, restDistinct⟩ := List.nodup_cons.mp distinct
      rw [List.map_cons, put, List.map_cons]
      by_cases same : name = key
      · subst same
        have others : names.map (fun other => (other, found other)) =
            names.map fun other => (other, if other = name then new else found other) :=
          List.map_congr_left fun other isOther => by
            have different : other ≠ name := by
              rintro rfl
              exact isNew isOther
            rw [if_neg different]
        rw [if_pos rfl, if_pos rfl, others]
      · have inRest : key ∈ names := (List.mem_cons.mp member).resolve_left (Ne.symm same)
        rw [if_neg same, if_neg same, ih restDistinct inRest]

theorem nodup_eraseDups : ∀ names : List κ, names.eraseDups.Nodup
  | [] => List.nodup_nil
  | name :: names => by
      rw [List.eraseDups_cons, List.nodup_cons, List.mem_eraseDups]
      exact ⟨by simp, nodup_eraseDups _⟩
termination_by names => names.length
decreasing_by exact Nat.lt_succ_of_le (List.length_filter_le _ _)

/-- The first occurrences in another order of the names are the same names. -/
theorem perm_eraseDups {names others : List κ} (perm : names.Perm others) :
    names.eraseDups.Perm others.eraseDups := by
  refine (List.perm_ext_iff_of_nodup (nodup_eraseDups _) (nodup_eraseDups _)).mpr fun name => ?_
  rw [List.mem_eraseDups, List.mem_eraseDups, perm.mem_iff]

theorem eraseDups_concat_of_mem {names : List κ} {name : κ} (member : name ∈ names) :
    (names ++ [name]).eraseDups = names.eraseDups := by
  simp [List.eraseDups_append, List.removeAll, member]

theorem eraseDups_concat_of_not_mem {names : List κ} {name : κ} (isNew : name ∉ names) :
    (names ++ [name]).eraseDups = names.eraseDups ++ [name] := by
  simp [List.eraseDups_append, List.removeAll, isNew, List.eraseDups_cons]

/-- One more item comes to the end of its group, and the group to the end if it is new. -/
theorem grouped_concat (items : List γ) (last : γ) :
    grouped outer inner value (items ++ [last]) =
      put (outer last) (group outer inner value items (outer last) ++ [(inner last, value last)])
        (grouped outer inner value items) := by
  rw [grouped, List.map_append, List.map_singleton]
  by_cases member : outer last ∈ items.map outer
  · rw [eraseDups_concat_of_mem member, grouped,
      put_map_of_mem (nodup_eraseDups _) _ (List.mem_eraseDups.mpr member)]
    refine List.map_congr_left fun key _ => congrArg (Prod.mk key) ?_
    split
    next same => rw [same, group_concat_self]
    next different => rw [group_concat_of_ne different]
  · have isNew : outer last ∉ keys (grouped outer inner value items) := by
      rwa [keys_grouped, List.mem_eraseDups]
    rw [eraseDups_concat_of_not_mem member, put_of_not_mem _ isNew, List.map_append,
      List.map_singleton, group_concat_self, grouped]
    congr 1
    refine List.map_congr_left fun key isKey => congrArg (Prod.mk key) (group_concat_of_ne ?_ items)
    rintro rfl
    exact member (List.mem_eraseDups.mp isKey)

/-- Groups of the same items in another order have the same items in another order. -/
theorem perm_group {others : List γ} (perm : items.Perm others) (key : κ) :
    (group outer inner value items key).Perm (group outer inner value others key) :=
  (perm.filter _).map _

/-- Taking the items by their keys only reorders them. -/
theorem perm_flatMap_filter {names : List κ} (distinct : names.Nodup)
    (named : ∀ item ∈ items, outer item ∈ names) :
    (names.flatMap fun name => items.filter fun item => outer item = name).Perm items := by
  induction names generalizing items with
  | nil =>
      obtain rfl : items = [] := List.eq_nil_iff_forall_not_mem.mpr fun item isItem =>
        List.not_mem_nil (named item isItem)
      exact .refl _
  | cons name names ih =>
      obtain ⟨isNew, restDistinct⟩ := List.nodup_cons.mp distinct
      -- The items of the other names are those that remain when the first ones are taken.
      have others : (names.flatMap fun key => items.filter fun item => outer item = key) =
          names.flatMap fun key =>
            (items.filter fun item => ! decide (outer item = name)).filter fun item =>
              outer item = key := by
        refine List.flatMap_congr fun key isKey => ?_
        rw [List.filter_filter]
        refine List.filter_congr fun item _ => ?_
        by_cases same : outer item = key
        · have different : outer item ≠ name := by
            rintro rfl
            exact isNew (same ▸ isKey)
          simp [same, same ▸ different]
        · simp [same]
      have restNamed : ∀ item ∈ items.filter (fun item => ! decide (outer item = name)),
          outer item ∈ names := by
        intro item isRest
        obtain ⟨isItem, different⟩ := List.mem_filter.mp isRest
        exact (List.mem_cons.mp (named item isItem)).resolve_left (by simpa using different)
      rw [List.flatMap_cons, others]
      exact ((ih restDistinct restNamed).append_left _).trans (List.filter_append_perm _ items)

/-- Listing the groups one after the other gives the items in another order. -/
theorem perm_flatMap_grouped {δ : Type} (image : κ → ι → α → δ) (items : List γ) :
    ((grouped outer inner value items).flatMap fun entry =>
      entry.2.map fun found => image entry.1 found.1 found.2).Perm
        (items.map fun item => image (outer item) (inner item) (value item)) := by
  have listed : ((grouped outer inner value items).flatMap fun entry =>
      entry.2.map fun found => image entry.1 found.1 found.2) =
        ((items.map outer).eraseDups.flatMap fun key =>
          items.filter fun item => outer item = key).map
            fun item => image (outer item) (inner item) (value item) := by
    rw [grouped, List.flatMap_map, List.map_flatMap]
    refine List.flatMap_congr fun key _ => ?_
    rw [group, List.map_map]
    refine List.map_congr_left fun item inGroup => ?_
    rw [← of_decide_eq_true (List.mem_filter.mp inGroup).2]
    rfl
  rw [listed]
  exact (perm_flatMap_filter (nodup_eraseDups _) fun item isItem =>
    List.mem_eraseDups.mpr (List.mem_map_of_mem isItem)).map _

/-- Items that do not share both keys are grouped by putting them in order. -/
theorem foldl_put_eq_grouped [DecidableEq ι]
    (distinct : (items.map fun item => (outer item, inner item)).Nodup) :
    items.foldl (fun table item =>
        put (outer item) (put (inner item) (value item) ((get? (outer item) table).getD [])) table)
      [] = grouped outer inner value items := by
  induction items using List.reverseRecOn with
  | nil => rfl
  | append_singleton items last ih =>
      rw [List.map_append, List.nodup_append] at distinct
      obtain ⟨earlier, -, apart⟩ := distinct
      have isNew : inner last ∉ keys (group outer inner value items (outer last)) := by
        rw [keys_group]
        rintro member
        obtain ⟨item, inGroup, sameInner⟩ := List.mem_map.mp member
        obtain ⟨isItem, sameOuter⟩ := List.mem_filter.mp inGroup
        exact apart _ (List.mem_map_of_mem isItem) _ (List.mem_singleton_self _)
          (Prod.ext (of_decide_eq_true sameOuter) sameInner)
      rw [List.foldl_append, ih earlier, List.foldl_cons, List.foldl_nil, getD_get?_grouped,
        put_of_not_mem _ isNew, grouped_concat]

end Entries

end ApiWorkshop
