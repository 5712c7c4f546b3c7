/-!
# Ordered entries

A table keeps its keys in the order in which they first appeared.  Putting a
value under a key that is already there keeps the place of the key.
-/

namespace ApiWorkshop

abbrev Entries (κ α : Type) := List (κ × α)

namespace Entries

variable {κ α : Type} [DecidableEq κ]

def get? (key : κ) : Entries κ α → Option α
  | [] => none
  | (other, value) :: rest => if other = key then some value else get? key rest

def keys (entries : Entries κ α) : List κ :=
  entries.map Prod.fst

def hasKey (key : κ) (entries : Entries κ α) : Bool :=
  (get? key entries).isSome

/-- The entries with a value put under a key. -/
def put (key : κ) (value : α) : Entries κ α → Entries κ α
  | [] => [(key, value)]
  | (other, old) :: rest =>
      if other = key then (other, value) :: rest else (other, old) :: put key value rest

def erase (key : κ) (entries : Entries κ α) : Entries κ α :=
  entries.filter fun entry => entry.1 ≠ key

/-- Entries made of pairs in order; of equal keys the first keeps its place and
the last its value. -/
def ofPairs (pairs : List (κ × α)) : Entries κ α :=
  pairs.foldl (fun entries pair => put pair.1 pair.2 entries) []

@[simp]
theorem get?_nil (key : κ) : get? key ([] : Entries κ α) = none :=
  rfl

theorem get?_put_self (key : κ) (value : α) (entries : Entries κ α) :
    get? key (put key value entries) = some value := by
  induction entries with
  | nil => simp [put, get?]
  | cons entry rest ih =>
      by_cases same : entry.1 = key
      · simp [put, get?, same]
      · simp [put, get?, same, ih]

theorem get?_put_of_ne {key other : κ} (different : other ≠ key) (value : α)
    (entries : Entries κ α) :
    get? other (put key value entries) = get? other entries := by
  induction entries with
  | nil => simp [put, get?, different.symm]
  | cons entry rest ih =>
      by_cases same : entry.1 = key
      · simp [put, get?, same, different.symm]
      · simp [put, get?, same, ih]

end Entries

end ApiWorkshop
