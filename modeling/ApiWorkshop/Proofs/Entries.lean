import ApiWorkshop.Entries

/-!
# Lookups and keys of entries

What is found under a key after entries were put, erased, put together or made
from their keys, and which keys there are.
-/

namespace ApiWorkshop

namespace Entries

section Keys

variable {κ α : Type}

theorem keys_append (first second : Entries κ α) :
    keys (first ++ second) = keys first ++ keys second :=
  List.map_append

theorem value_eq_of_mem {entries : Entries κ α} (distinct : (keys entries).Nodup)
    {key : κ} {first second : α} (isFirst : (key, first) ∈ entries)
    (isSecond : (key, second) ∈ entries) : first = second := by
  induction entries with
  | nil => simp at isFirst
  | cons entry entries ih =>
      obtain ⟨isNew, restDistinct⟩ := List.nodup_cons.mp distinct
      rcases List.mem_cons.mp isFirst with rfl | firstRest
      · rcases List.mem_cons.mp isSecond with same | secondRest
        · exact (Prod.mk.inj same).2.symm
        · exact absurd (List.mem_map_of_mem (f := Prod.fst) secondRest) isNew
      · rcases List.mem_cons.mp isSecond with rfl | secondRest
        · exact absurd (List.mem_map_of_mem (f := Prod.fst) firstRest) isNew
        · exact ih restDistinct firstRest secondRest

theorem keys_filterMap (value : κ → Option α) (names : List κ) :
    keys (names.filterMap fun name => (value name).map fun found => (name, found)) =
      names.filter fun name => (value name).isSome := by
  induction names with
  | nil => rfl
  | cons name names ih =>
      rw [keys] at ih
      cases isValue : value name <;> simp [keys, isValue, ih]

theorem nodup_keys_filter {entries : Entries κ α} (keep : κ × α → Bool)
    (distinct : (keys entries).Nodup) : (keys (entries.filter keep)).Nodup :=
  distinct.sublist (List.filter_sublist.map _)

theorem eraseDups_of_nodup [BEq κ] [LawfulBEq κ] {names : List κ} (distinct : names.Nodup) :
    names.eraseDups = names := by
  induction names with
  | nil => rfl
  | cons name names ih =>
      obtain ⟨isNew, restDistinct⟩ := List.nodup_cons.mp distinct
      have others : names.filter (fun other => !other == name) = names := by
        rw [List.filter_eq_self]
        intro other member
        have different : other ≠ name := by
          rintro rfl
          exact isNew member
        simpa using different
      rw [List.eraseDups_cons, others, ih restDistinct]

end Keys

variable {κ α : Type} [DecidableEq κ]

/-! ## What is found -/

theorem get?_erase_self (key : κ) (entries : Entries κ α) :
    get? key (erase key entries) = none := by
  induction entries with
  | nil => rfl
  | cons entry entries ih =>
      by_cases same : entry.1 = key
      · simpa [erase, same] using ih
      · simpa [erase, same, get?] using ih

theorem get?_erase_of_ne {key other : κ} (different : other ≠ key) (entries : Entries κ α) :
    get? other (erase key entries) = get? other entries := by
  induction entries with
  | nil => rfl
  | cons entry entries ih =>
      by_cases same : entry.1 = key
      · simpa [erase, same, get?, different.symm] using ih
      · have kept : erase key (entry :: entries) = entry :: erase key entries := by
          simp [erase, same]
        rw [kept, get?, get?, ih]

theorem mem_of_get? {key : κ} {value : α} {entries : Entries κ α}
    (found : get? key entries = some value) : (key, value) ∈ entries := by
  induction entries with
  | nil => simp at found
  | cons entry entries ih =>
      rw [get?] at found
      split at found
      next same =>
        obtain rfl := Option.some.inj found
        exact same ▸ List.mem_cons_self
      next => exact List.mem_cons_of_mem _ (ih found)

theorem mem_keys_of_get? {key : κ} {value : α} {entries : Entries κ α}
    (found : get? key entries = some value) : key ∈ keys entries :=
  List.mem_map_of_mem (mem_of_get? found)

theorem isSome_get?_of_mem_keys {key : κ} {entries : Entries κ α} (member : key ∈ keys entries) :
    (get? key entries).isSome = true := by
  induction entries with
  | nil => simp [keys] at member
  | cons entry entries ih =>
      rw [get?]
      split
      · rfl
      next different =>
        rcases List.mem_cons.mp member with same | inRest
        · exact absurd same.symm different
        · exact ih inRest

theorem get?_of_not_mem {key : κ} {entries : Entries κ α} (isNew : key ∉ keys entries) :
    get? key entries = none := by
  induction entries with
  | nil => rfl
  | cons entry entries ih =>
      simp only [keys, List.map_cons, List.mem_cons, not_or] at isNew
      rw [get?, if_neg (Ne.symm isNew.1)]
      exact ih isNew.2

theorem get?_append (key : κ) (first second : Entries κ α) :
    get? key (first ++ second) = (get? key first).or (get? key second) := by
  induction first with
  | nil => rfl
  | cons entry first ih =>
      rw [List.cons_append, get?, get?]
      split
      · rfl
      · exact ih

theorem get?_append_of_not_mem {key : κ} {entries : Entries κ α} (others : Entries κ α)
    (isNew : key ∉ keys entries) : get? key (entries ++ others) = get? key others := by
  rw [get?_append, get?_of_not_mem isNew, Option.none_or]

theorem get?_of_mem {key : κ} {value : α} {entries : Entries κ α}
    (distinct : (keys entries).Nodup) (member : (key, value) ∈ entries) :
    get? key entries = some value := by
  have isKey : key ∈ keys entries := List.mem_map_of_mem (f := Prod.fst) member
  obtain ⟨found, isFound⟩ := Option.isSome_iff_exists.mp (isSome_get?_of_mem_keys isKey)
  rw [isFound, value_eq_of_mem distinct member (mem_of_get? isFound)]

theorem get?_eq_some_iff {key : κ} {value : α} {entries : Entries κ α}
    (distinct : (keys entries).Nodup) : get? key entries = some value ↔ (key, value) ∈ entries :=
  ⟨mem_of_get?, get?_of_mem distinct⟩

/-- With distinct keys it does not matter for lookups in which order the entries stand. -/
theorem get?_eq_of_perm {entries others : Entries κ α} (perm : entries.Perm others)
    (distinct : (keys entries).Nodup) (key : κ) : get? key entries = get? key others := by
  have othersDistinct : (keys others).Nodup := (perm.map Prod.fst).nodup_iff.mp distinct
  refine Option.ext fun value => ?_
  rw [get?_eq_some_iff distinct, get?_eq_some_iff othersDistinct, perm.mem_iff]

/-- Under distinct keys the entries with a key are the one that is found under it. -/
theorem filter_key_eq {entries : Entries κ α} (distinct : (keys entries).Nodup) (key : κ) :
    (entries.filter fun entry => entry.1 = key) =
      ((get? key entries).map fun value => (key, value)).toList := by
  induction entries with
  | nil => rfl
  | cons entry entries ih =>
      obtain ⟨isNew, restDistinct⟩ := List.nodup_cons.mp distinct
      rw [List.filter_cons, get?, ih restDistinct]
      by_cases same : entry.1 = key
      · subst same
        simp [get?_of_not_mem isNew]
      · simp [same]

theorem get?_map {β : Type} (image : α → β) (entries : Entries κ α) (key : κ) :
    get? key (entries.map fun entry => (entry.1, image entry.2)) =
      (get? key entries).map image := by
  induction entries with
  | nil => rfl
  | cons entry entries ih =>
      rw [List.map_cons, get?, get?, ih]
      split <;> rfl

theorem mem_put {entry : κ × α} {key : κ} {value : α} {entries : Entries κ α}
    (member : entry ∈ put key value entries) : entry = (key, value) ∨ entry ∈ entries := by
  induction entries with
  | nil => exact .inl (List.mem_singleton.mp member)
  | cons first entries ih =>
      rw [put] at member
      split at member
      next same =>
        rcases List.mem_cons.mp member with isEntry | inRest
        · exact .inl (isEntry.trans (by rw [same]))
        · exact .inr (List.mem_cons_of_mem _ inRest)
      next =>
        rcases List.mem_cons.mp member with isFirst | inRest
        · exact .inr (isFirst ▸ List.mem_cons_self)
        · exact (ih inRest).imp_right (List.mem_cons_of_mem _)

theorem put_append_of_not_mem {key : κ} {entries : Entries κ α} (value : α)
    (others : Entries κ α) (isNew : key ∉ keys entries) :
    put key value (entries ++ others) = entries ++ put key value others := by
  induction entries with
  | nil => rfl
  | cons entry entries ih =>
      simp only [keys, List.map_cons, List.mem_cons, not_or] at isNew
      rw [List.cons_append, put, if_neg (Ne.symm isNew.1), ih isNew.2]
      rfl

theorem put_of_not_mem {key : κ} {entries : Entries κ α} (value : α)
    (isNew : key ∉ keys entries) : put key value entries = entries ++ [(key, value)] := by
  simpa [put] using put_append_of_not_mem value [] isNew

theorem keys_put_of_not_mem {key : κ} {entries : Entries κ α} (value : α)
    (isNew : key ∉ keys entries) : keys (put key value entries) = keys entries ++ [key] := by
  rw [put_of_not_mem value isNew, keys_append]
  rfl

theorem keys_put_of_mem {key : κ} {entries : Entries κ α} (value : α)
    (member : key ∈ keys entries) : keys (put key value entries) = keys entries := by
  induction entries with
  | nil => simp [keys] at member
  | cons entry entries ih =>
      rw [put]
      split
      next same => rfl
      next different =>
        rcases List.mem_cons.mp member with same | inRest
        · exact absurd same.symm different
        · exact congrArg (entry.1 :: ·) (ih inRest)

theorem mem_keys_put {other key : κ} {value : α} {entries : Entries κ α} :
    other ∈ keys (put key value entries) ↔ other = key ∨ other ∈ keys entries := by
  by_cases member : key ∈ keys entries
  · rw [keys_put_of_mem value member]
    exact ⟨.inr, fun either => either.elim (· ▸ member) id⟩
  · rw [keys_put_of_not_mem value member]
    simp [or_comm]

theorem nodup_keys_put {key : κ} {value : α} {entries : Entries κ α}
    (distinct : (keys entries).Nodup) : (keys (put key value entries)).Nodup := by
  by_cases member : key ∈ keys entries
  · rwa [keys_put_of_mem value member]
  · rw [keys_put_of_not_mem value member, List.nodup_append]
    refine ⟨distinct, by simp, ?_⟩
    rintro other inEntries _ isKey rfl
    exact member (List.mem_singleton.mp isKey ▸ inEntries)

theorem nodup_keys_ofPairs (pairs : List (κ × α)) : (keys (ofPairs pairs)).Nodup := by
  have steps (entries : Entries κ α) (distinct : (keys entries).Nodup) :
      (keys (pairs.foldl (fun entries pair => put pair.1 pair.2 entries) entries)).Nodup := by
    induction pairs generalizing entries with
    | nil => exact distinct
    | cons pair pairs ih => exact ih _ (nodup_keys_put distinct)
  exact steps [] List.nodup_nil

theorem mem_of_mem_ofPairs {entry : κ × α} {pairs : List (κ × α)}
    (member : entry ∈ ofPairs pairs) : entry ∈ pairs := by
  suffices ∀ entries : Entries κ α,
      entry ∈ pairs.foldl (fun entries pair => put pair.1 pair.2 entries) entries →
        entry ∈ entries ∨ entry ∈ pairs from (this [] member).resolve_left List.not_mem_nil
  clear member
  induction pairs with
  | nil => exact fun _ => .inl
  | cons pair pairs ih =>
      intro entries inEntries
      rcases ih _ inEntries with isPut | inRest
      · rcases mem_put isPut with rfl | inEntries
        · exact .inr List.mem_cons_self
        · exact .inl inEntries
      · exact .inr (List.mem_cons_of_mem _ inRest)

theorem foldl_put_of_nodup {entries : Entries κ α} {pairs : List (κ × α)}
    (distinct : (keys (entries ++ pairs)).Nodup) :
    pairs.foldl (fun entries pair => put pair.1 pair.2 entries) entries = entries ++ pairs := by
  induction pairs generalizing entries with
  | nil => exact (List.append_nil entries).symm
  | cons pair pairs ih =>
      have isNew : pair.1 ∉ keys entries := by
        rw [keys_append, List.nodup_append] at distinct
        exact fun member => distinct.2.2 _ member _ List.mem_cons_self rfl
      rw [List.foldl_cons, put_of_not_mem pair.2 isNew, ih, List.append_assoc]
      · rfl
      · rwa [List.append_assoc]

/-- Pairs with distinct keys stay as they are. -/
theorem ofPairs_of_nodup {pairs : List (κ × α)} (distinct : (keys pairs).Nodup) :
    ofPairs pairs = pairs :=
  foldl_put_of_nodup distinct

/-- Entries of entries with distinct keys at both levels. -/
def DistinctKeys {ι : Type} (table : Entries κ (Entries ι α)) : Prop :=
  (keys table).Nodup ∧ ∀ entry ∈ table, (keys entry.2).Nodup

theorem distinctKeys_put {ι : Type} [DecidableEq ι] {table : Entries κ (Entries ι α)}
    (distinct : DistinctKeys table) (outer : κ) (inner : ι) (value : α) :
    DistinctKeys (put outer (put inner value ((get? outer table).getD [])) table) := by
  refine ⟨nodup_keys_put distinct.1, fun entry isEntry => ?_⟩
  rcases mem_put isEntry with rfl | inTable
  · refine nodup_keys_put ?_
    cases isKnown : get? outer table with
    | none => exact List.nodup_nil
    | some entries => exact distinct.2 _ (mem_of_get? isKnown)
  · exact distinct.2 entry inTable

/-- Entries that are made of their keys are found under these keys. -/
theorem get?_filterMap (value : κ → Option α) (names : List κ) (key : κ) :
    get? key (names.filterMap fun name => (value name).map fun found => (name, found)) =
      if key ∈ names then value key else none := by
  induction names with
  | nil => simp
  | cons name names ih =>
      cases isValue : value name with
      | none =>
          rw [List.filterMap_cons_none (by simp [isValue]), ih]
          by_cases same : key = name
          · simp [same, isValue]
          · simp [same]
      | some found =>
          rw [List.filterMap_cons_some (b := (name, found)) (by simp [isValue]), get?]
          by_cases same : key = name
          · simp [same, isValue]
          · rw [if_neg (Ne.symm same), ih]
            simp [same]

theorem get?_filter (keep : κ → Bool) (entries : Entries κ α) (key : κ) :
    get? key (entries.filter fun entry => keep entry.1) =
      if keep key then get? key entries else none := by
  induction entries with
  | nil => simp
  | cons entry entries ih =>
      by_cases same : entry.1 = key
      · subst same
        cases kept : keep entry.1 <;> simp [kept, get?, ih]
      · cases kept : keep entry.1 <;> simp [kept, get?, ih, same]

end Entries

end ApiWorkshop
