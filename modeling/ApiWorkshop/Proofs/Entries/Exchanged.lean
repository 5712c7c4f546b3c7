import ApiWorkshop.Proofs.Entries

/-!
# Entries with one value exchanged

Two tables can differ in a single place: the value under one key is another one, or
one of them has an entry more.  Exchanging a value changes only the lookup of its key
and no selection that keeps both values or neither.
-/

namespace ApiWorkshop

namespace Entries

/-- The second entries are the first ones with the value under a key exchanged. -/
inductive Exchanged {κ α : Type} (key : κ) (old new : α) : Entries κ α → Entries κ α → Prop
  | here (rest : Entries κ α) : Exchanged key old new ((key, old) :: rest) ((key, new) :: rest)
  | there {other : κ} (different : other ≠ key) (value : α) {rest changed : Entries κ α}
      (inRest : Exchanged key old new rest changed) :
      Exchanged key old new ((other, value) :: rest) ((other, value) :: changed)

/-- The second entries are the first ones with one entry more, wherever it stands. -/
def Inserted {κ α : Type} (entry : κ × α) (entries others : Entries κ α) : Prop :=
  ∃ front back, entries = front ++ back ∧ others = front ++ entry :: back

namespace Exchanged

variable {κ α : Type} {key : κ} {old new : α} {entries others : Entries κ α}

/-- A selection that keeps both values has them exchanged as well. -/
theorem filter_of_keep (exchanged : Exchanged key old new entries others) (keep : κ × α → Bool)
    (keepsOld : keep (key, old) = true) (keepsNew : keep (key, new) = true) :
    Exchanged key old new (entries.filter keep) (others.filter keep) := by
  induction exchanged with
  | here rest =>
      rw [List.filter_cons_of_pos keepsOld, List.filter_cons_of_pos keepsNew]
      exact .here _
  | @there other different value rest changed inRest ih =>
      cases kept : keep (other, value) with
      | true =>
          rw [List.filter_cons_of_pos kept, List.filter_cons_of_pos kept]
          exact .there different value ih
      | false =>
          rw [List.filter_cons_of_neg (by simp [kept]), List.filter_cons_of_neg (by simp [kept])]
          exact ih

/-- A selection that keeps neither value is the same. -/
theorem filter_of_drop (exchanged : Exchanged key old new entries others) (keep : κ × α → Bool)
    (dropsOld : keep (key, old) = false) (dropsNew : keep (key, new) = false) :
    others.filter keep = entries.filter keep := by
  induction exchanged with
  | here rest => simp [dropsOld, dropsNew]
  | there different value inRest ih => rw [List.filter_cons, List.filter_cons, ih]

variable [DecidableEq κ]

theorem get?_old (exchanged : Exchanged key old new entries others) :
    get? key entries = some old := by
  induction exchanged with
  | here rest => rw [get?, if_pos rfl]
  | there different value inRest ih => rw [get?, if_neg different, ih]

theorem get?_new (exchanged : Exchanged key old new entries others) :
    get? key others = some new := by
  induction exchanged with
  | here rest => rw [get?, if_pos rfl]
  | there different value inRest ih => rw [get?, if_neg different, ih]

theorem get?_of_ne (exchanged : Exchanged key old new entries others) {other : κ}
    (different : other ≠ key) : get? other others = get? other entries := by
  induction exchanged with
  | here rest => rw [get?, get?, if_neg different.symm, if_neg different.symm]
  | there _ value inRest ih => rw [get?, get?, ih]

/-- There are the same keys. -/
theorem hasKey_eq (exchanged : Exchanged key old new entries others) (other : κ) :
    hasKey other others = hasKey other entries := by
  by_cases same : other = key
  · subst same
    rw [hasKey, hasKey, exchanged.get?_new, exchanged.get?_old]
    rfl
  · rw [hasKey, hasKey, exchanged.get?_of_ne same]

end Exchanged

/-- An entry more takes no key away. -/
theorem Inserted.hasKey_of_hasKey {κ α : Type} [DecidableEq κ] {entry : κ × α}
    {entries others : Entries κ α} (inserted : Inserted entry entries others) {key : κ}
    (isKey : hasKey key entries = true) : hasKey key others = true := by
  obtain ⟨front, back, rfl, rfl⟩ := inserted
  rw [hasKey, get?_append] at isKey ⊢
  rw [Option.isSome_or, Bool.or_eq_true] at isKey ⊢
  refine isKey.imp_right fun inBack => ?_
  rw [get?]
  split
  · rfl
  · exact inBack

end Entries

end ApiWorkshop
