import ApiWorkshop.Proofs.Files.Writes

/-!
# What a write reaches

A write whose cleaning up works reaches nothing but the place that its path names
and directories on the way to it, whether it goes well or fails.  So writes made
one after the other reach nothing but their places and the ways to them.
-/

namespace ApiWorkshop

namespace FileTree

/-- The temporary file of a failed write is gone, and nothing else was reached. -/
theorem at?_of_fillAndMove_error {faults : WriteFaults} (allOrNothing : faults.AllOrNothing)
    {here temporary : Location} {path : Path} {draft : Draft} {tree after : FileTree}
    {error : FileError} (below : temporary ≠ []) (isFree : tree.at? temporary = none)
    (isFailure : fillAndMove faults here path draft temporary
      (Entries.put temporary (.file (.text [])) tree) = (.error error, after))
    (location : Location) : after.at? location = tree.at? location := by
  have gone (content : Content) :=
    at?_erase_put_put below isFree (.file (.text [])) (.file content) location
  simp only [fillAndMove, abandon_eq allOrNothing] at isFailure
  split at isFailure
  · obtain ⟨-, rfl⟩ := Prod.mk.inj isFailure
    exact at?_erase_put below isFree _ location
  · obtain ⟨-, rfl⟩ := Prod.mk.inj isFailure
    exact at?_erase_put below isFree _ location
  · split at isFailure
    · obtain ⟨-, rfl⟩ := Prod.mk.inj isFailure
      exact gone _
    · obtain ⟨-, rfl⟩ := Prod.mk.inj isFailure
      exact gone _
    · obtain ⟨-, rfl⟩ := Prod.mk.inj isFailure
      exact gone _
    · split at isFailure
      · simp at isFailure
      · obtain ⟨-, rfl⟩ := Prod.mk.inj isFailure
        exact gone _

/-- A write that fails has reached nothing but directories on the way to the directory
of its place. -/
theorem WellFormed.wayMade_of_atomicWrite {tree after : FileTree} (wellFormed : tree.WellFormed)
    {faults : WriteFaults} (allOrNothing : faults.AllOrNothing) {here directory : Location}
    (isHere : tree.at? here = some .directory) {path : Path} (clean : path.IsClean)
    (names : Names tree here path.parent directory) {draft : Draft} {error : FileError}
    (isFailure : tree.atomicWrite faults here path draft = (.error error, after)) :
    WayMade directory tree after := by
  rw [atomicWrite] at isFailure
  split at isFailure
  · obtain ⟨-, rfl⟩ := Prod.mk.inj isFailure
    exact wayMade_refl directory tree
  · split at isFailure
    next isMade =>
      obtain ⟨-, rfl⟩ := Prod.mk.inj isFailure
      exact (wellFormed.makeDirectories_cases isHere names isMade).2.1
    next made isMade =>
      obtain ⟨madeFormed, wayMade, reached⟩ :=
        wellFormed.makeDirectories_cases isHere names isMade
      split at isFailure
      · obtain ⟨-, rfl⟩ := Prod.mk.inj isFailure
        exact wayMade
      · obtain ⟨-, rfl⟩ := Prod.mk.inj isFailure
        exact wayMade
      next temporary withTemporary _ isCreated =>
        rcases madeFormed.createTemporary_cases clean
          (names.of_directories fun _ => wayMade.grown.keeps) (reached _ rfl) with
          ⟨name, isNamed, isFree, -⟩ | ⟨other, notCreated, -⟩
        · rw [isNamed] at isCreated
          obtain ⟨rfl, rfl⟩ := Prod.mk.inj (Except.ok.inj isCreated)
          have sameAt := at?_of_fillAndMove_error allOrNothing (by simp) isFree isFailure
          exact fun location => by
            rw [sameAt]
            exact wayMade location
        · rw [notCreated] at isCreated
          contradiction

/-! ## Writes one after the other -/

/-- A tree after writes to targets, paths with their places, of which each may have
failed: what differs is a file at the place of a target or a new directory on the way
to one. -/
def Reached (targets : List (Path × Location)) (tree after : FileTree) : Prop :=
  ∀ location, after.at? location = tree.at? location ∨
    (∃ target ∈ targets, location = target.2 ∧ IsShort target.1 ∧
      ∃ content, after.at? location = some (.file content)) ∨
    (tree.at? location = none ∧ after.at? location = some .directory ∧
      ∃ target ∈ targets, location <+: target.2 ∧ location ≠ target.2)

theorem reached_refl (targets : List (Path × Location)) (tree : FileTree) :
    Reached targets tree tree :=
  fun _ => .inl rfl

theorem Reached.mono {targets others : List (Path × Location)} {tree after : FileTree}
    (reached : Reached targets tree after) (subset : targets ⊆ others) :
    Reached others tree after := by
  intro location
  rcases reached location with same | ⟨target, isTarget, isFile⟩ |
    ⟨absent, isDirectory, target, isTarget, onWay⟩
  · exact .inl same
  · exact .inr (.inl ⟨target, subset isTarget, isFile⟩)
  · exact .inr (.inr ⟨absent, isDirectory, target, subset isTarget, onWay⟩)

theorem Reached.trans {targets : List (Path × Location)} {tree next after : FileTree}
    (first : Reached targets tree next) (second : Reached targets next after) :
    Reached targets tree after := by
  intro location
  rcases second location with same | isFile | ⟨absent, isDirectory, onWay⟩
  · rw [same]
    exact first location
  · exact .inr (.inl isFile)
  · rcases first location with before | ⟨-, -, -, -, content, isThere⟩ | ⟨-, isThere, -⟩
    · exact .inr (.inr ⟨before ▸ absent, isDirectory, onWay⟩)
    · rw [absent] at isThere
      contradiction
    · rw [absent] at isThere
      contradiction

/-- A write reaches its place and the way to it. -/
theorem WellFormed.reached_atomicWrite {tree : FileTree} (wellFormed : tree.WellFormed)
    {faults : WriteFaults} (allOrNothing : faults.AllOrNothing) {here place : Location}
    (isHere : tree.at? here = some .directory) {path : Path} (names : Names tree here path place)
    (hasPlace : endsInName path = true ∨ tree.at? place = some .directory) (draft : Draft) :
    Reached [(path, place)] tree (tree.atomicWrite faults here path draft).2 := by
  obtain ⟨directory, parentNames, isPlace, staysAt⟩ := names.parent
  generalize isWrite : tree.atomicWrite faults here path draft = outcome
  have effect := wellFormed.atomicWrite_cases allOrNothing isHere names draft
  rw [isWrite] at effect
  obtain ⟨outcome, after⟩ := outcome
  intro location
  rcases effect.2 with ⟨-, -, short, -, written⟩ | ⟨error, rfl, -⟩
  · by_cases atPlace : location = place
    · subst atPlace
      exact .inr (.inl ⟨_, List.mem_singleton_self _, rfl, short, _, written.at_place⟩)
    · rcases written.elsewhere location atPlace with same | ⟨absent, isDirectory, onWay⟩
      · exact .inl same
      · exact .inr (.inr ⟨absent, isDirectory, _, List.mem_singleton_self _, onWay, atPlace⟩)
  · have wayMade :=
      wellFormed.wayMade_of_atomicWrite allOrNothing isHere names.1 parentNames isWrite
    cases ends : endsInName path with
    | true =>
        obtain ⟨-, rfl⟩ := isPlace ends
        rcases wayMade location with same | ⟨absent, isDirectory, onWay⟩
        · exact .inl same
        · refine .inr (.inr ⟨absent, isDirectory, _, List.mem_singleton_self _,
            onWay.trans (List.prefix_append _ _), ?_⟩)
          rintro rfl
          exact absurd onWay.length_le (by simp)
    | false =>
        have isThere : tree.at? directory = some .directory := by
          rcases staysAt ends with rfl | isThere
          · exact hasPlace.resolve_left (by simp [ends])
          · exact isThere
        exact .inl (wayMade.at?_eq wellFormed isThere location)

/-- A well-formed tree after writes to targets, with every directory still there. -/
structure WrittenTo (targets : List (Path × Location)) (tree after : FileTree) : Prop where
  wellFormed : after.WellFormed
  keeps : ∀ location, tree.at? location = some .directory → after.at? location = some .directory
  reached : Reached targets tree after

theorem WellFormed.writtenTo_self {tree : FileTree} (wellFormed : tree.WellFormed)
    (targets : List (Path × Location)) : WrittenTo targets tree tree :=
  ⟨wellFormed, fun _ => id, reached_refl targets tree⟩

theorem WrittenTo.trans {targets : List (Path × Location)} {tree next after : FileTree}
    (first : WrittenTo targets tree next) (second : WrittenTo targets next after) :
    WrittenTo targets tree after :=
  ⟨second.wellFormed, fun location isDirectory => second.keeps location
    (first.keeps location isDirectory), first.reached.trans second.reached⟩

theorem WrittenTo.mono {targets others : List (Path × Location)} {tree after : FileTree}
    (written : WrittenTo targets tree after) (subset : targets ⊆ others) :
    WrittenTo others tree after :=
  ⟨written.wellFormed, written.keeps, written.reached.mono subset⟩

theorem WellFormed.writtenTo_atomicWrite {tree : FileTree} (wellFormed : tree.WellFormed)
    {faults : WriteFaults} (allOrNothing : faults.AllOrNothing) {here place : Location}
    (isHere : tree.at? here = some .directory) {path : Path} (names : Names tree here path place)
    (hasPlace : endsInName path = true ∨ tree.at? place = some .directory) (draft : Draft) :
    WrittenTo [(path, place)] tree (tree.atomicWrite faults here path draft).2 := by
  obtain ⟨afterFormed, outcome⟩ := wellFormed.atomicWrite_cases allOrNothing isHere names draft
  refine ⟨afterFormed, fun location isDirectory => ?_,
    wellFormed.reached_atomicWrite allOrNothing isHere names hasPlace draft⟩
  rcases outcome with ⟨-, -, -, -, written⟩ | ⟨-, -, -, grown⟩
  · exact written.keeps isDirectory
  · exact grown.keeps isDirectory

end FileTree

end ApiWorkshop
