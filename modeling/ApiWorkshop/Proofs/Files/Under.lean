import ApiWorkshop.Proofs.Files.Removal

/-!
# Paths under a root

A path under a root goes on from it with names and never steps back.  So it
names a place below that of the root, whatever stands there, and what is on the
way from one place to the other is named by the paths in between.  A path
without names stays at the root.
-/

namespace ApiWorkshop

namespace Path

/-- A relative path without steps back. -/
structure StaysBelow (path : Path) : Prop where
  relative : path.root = .relative
  clean : path.IsClean
  noStep : ∀ name ∈ path.names, name.label ≠ ".."

/-- A relative path that names something and has no steps back. -/
structure IsInner (path : Path) : Prop where
  relative : path.root = .relative
  someNames : path.names ≠ []
  clean : path.IsClean
  noStep : ∀ name ∈ path.names, name.label ≠ ".."

instance : DecidablePred IsInner :=
  fun path => decidable_of_iff
    (path.root = .relative ∧ path.names ≠ [] ∧ path.IsClean ∧
      ∀ name ∈ path.names, name.label ≠ "..")
    ⟨fun ⟨relative, someNames, clean, noStep⟩ => ⟨relative, someNames, clean, noStep⟩,
      fun ⟨relative, someNames, clean, noStep⟩ => ⟨relative, someNames, clean, noStep⟩⟩

theorem IsInner.staysBelow {path : Path} (isInner : path.IsInner) : path.StaysBelow :=
  ⟨isInner.relative, isInner.clean, isInner.noStep⟩

theorem StaysBelow.isInner {path : Path} (staysBelow : path.StaysBelow)
    (someNames : path.names ≠ []) : path.IsInner :=
  ⟨staysBelow.relative, someNames, staysBelow.clean, staysBelow.noStep⟩

instance : DecidablePred StaysBelow :=
  fun path => decidable_of_iff
    (path.root = .relative ∧ path.IsClean ∧ ∀ name ∈ path.names, name.label ≠ "..")
    ⟨fun ⟨relative, clean, noStep⟩ => ⟨relative, clean, noStep⟩,
      fun ⟨relative, clean, noStep⟩ => ⟨relative, clean, noStep⟩⟩

/-- A path that goes on from a root with the names of an inner path. -/
def IsUnder (root path : Path) : Prop :=
  ∃ inner : Path, inner.IsInner ∧ path = root.join inner

theorem names_join {root inner : Path} (relative : inner.root = .relative) :
    (root.join inner).names = root.names ++ inner.names := by
  simp [join, relative]

theorem root_join {root inner : Path} (relative : inner.root = .relative) :
    (root.join inner).root = root.root := by
  simp [join, relative]

end Path

namespace FileTree

/-- The place of a path under a root with a place of its own. -/
def placeUnder (root : Path) (place : Location) (path : Path) : Location :=
  place ++ (path.names.drop root.names.length).map LooseText.label

theorem placeUnder_join {root inner : Path} (relative : inner.root = .relative)
    (place : Location) :
    placeUnder root place (root.join inner) = place ++ inner.names.map LooseText.label := by
  rw [placeUnder, Path.names_join relative, List.drop_left]

theorem place?_append_names {tree : FileTree} {location place : Location}
    {names more : List String} (named : place? tree location names = some place)
    (noStep : ∀ name ∈ more, name ≠ "..") :
    place? tree location (names ++ more) = some (place ++ more) := by
  rw [place?_append, named, Option.bind_some, place?_names tree place noStep]

variable {tree : FileTree} {here place : Location} {root path : Path}

theorem Names.join (names : Names tree here root place) (staysBelow : path.StaysBelow) :
    Names tree here (root.join path) (placeUnder root place (root.join path)) := by
  obtain ⟨relative, clean, noStep⟩ := staysBelow
  refine ⟨Path.isClean_join names.1 clean, ?_⟩
  have sameStart : start here (root.join path) = start here root := by
    rw [start, start, Path.root_join relative]
  rw [sameStart, placeUnder_join relative, Path.names_join relative, List.map_append]
  exact place?_append_names names.2 (List.forall_mem_map.mpr noStep)

theorem Names.under (names : Names tree here root place) (isUnder : root.IsUnder path) :
    Names tree here path (placeUnder root place path) := by
  obtain ⟨inner, isInner, rfl⟩ := isUnder
  exact names.join isInner.staysBelow

theorem endsInName_of_isUnder (isUnder : root.IsUnder path) : endsInName path = true := by
  obtain ⟨inner, isInner, rfl⟩ := isUnder
  rcases List.eq_nil_or_concat inner.names with noNames | ⟨front, last, isNames⟩
  · exact absurd noNames isInner.someNames
  · rw [List.concat_eq_append] at isNames
    have noStep := isInner.noStep last (by simp [isNames])
    have lastNoStep : last ≠ LooseText.ofString ".." := by
      rintro rfl
      simp at noStep
    simpa [endsInName, Path.names_join isInner.relative, isNames] using lastNoStep

theorem prefix_placeUnder (root : Path) (place : Location) (path : Path) :
    place <+: placeUnder root place path :=
  List.prefix_append _ _

theorem placeUnder_ne (isUnder : root.IsUnder path) (place : Location) :
    placeUnder root place path ≠ place := by
  obtain ⟨inner, isInner, rfl⟩ := isUnder
  rw [placeUnder_join isInner.relative]
  simpa using isInner.someNames

theorem length_placeUnder (isUnder : root.IsUnder path) (place : Location) :
    (placeUnder root place path).length + root.names.length =
      place.length + path.names.length := by
  obtain ⟨inner, isInner, rfl⟩ := isUnder
  simp only [placeUnder_join isInner.relative, Path.names_join isInner.relative,
    List.length_append, List.length_map]
  omega

end FileTree

end ApiWorkshop
