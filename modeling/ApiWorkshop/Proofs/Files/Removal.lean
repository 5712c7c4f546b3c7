import ApiWorkshop.Proofs.Files.Reach

/-!
# Removing files and directories

A file is removed where its path leads to it, an empty directory too, and a
directory with all that is below it leaves nothing at or below its place.
-/

namespace ApiWorkshop

namespace FileTree

/-! ## What stands in a directory -/

theorem mem_children_iff {tree : FileTree} {location : Location} {name : String} :
    name ∈ children tree location ↔ tree.at? (location ++ [name]) ≠ none := by
  have isEntry : tree.at? (location ++ [name]) = Entries.get? (location ++ [name]) tree := by
    simp [at?]
  rw [isEntry, children, List.mem_filterMap]
  constructor
  · rintro ⟨⟨entry, node⟩, member, isChild⟩
    rcases List.eq_nil_or_concat entry with rfl | ⟨parent, last, rfl⟩
    · simp at isChild
    · simp only [List.concat_eq_append, List.getLast?_append, List.getLast?_singleton,
        Option.some_or, List.dropLast_concat] at isChild
      split at isChild
      next same =>
        obtain rfl := Option.some.inj isChild
        subst same
        intro absent
        have isKey : parent ++ [last] ∈ Entries.keys tree := by
          rw [List.concat_eq_append] at member
          exact List.mem_map_of_mem member
        have found := Entries.isSome_get?_of_mem_keys isKey
        rw [absent] at found
        contradiction
      next => contradiction
  · intro isThere
    obtain ⟨node, found⟩ := Option.ne_none_iff_exists'.mp isThere
    exact ⟨_, Entries.mem_of_get? found, by simp⟩

/-- What something stands below is a directory. -/
theorem WellFormed.isDirectory_of_prefix {tree : FileTree} (wellFormed : tree.WellFormed)
    {location other : Location} (isThere : tree.at? location ≠ none)
    (above : other <+: location) (apart : other ≠ location) :
    tree.at? other = some .directory := by
  obtain ⟨names, rfl⟩ := above
  have someNames : names ≠ [] := by
    rintro rfl
    simp at apart
  exact Decidable.byContradiction fun noDirectory =>
    isThere (wellFormed.at?_below noDirectory names someNames)

/-- A directory with nothing in it can be taken away. -/
theorem WellFormed.erase_empty {tree : FileTree} (wellFormed : tree.WellFormed)
    {location : Location} (below : location ≠ [])
    (isEmpty : ∀ name, tree.at? (location ++ [name]) = none) :
    FileTree.WellFormed (Entries.erase location tree) := by
  constructor
  · intro other name node found
    rw [at?_erase below] at found ⊢
    split at found
    · contradiction
    · have different : other ≠ location := by
        rintro rfl
        rw [isEmpty name] at found
        contradiction
      rw [if_neg different, wellFormed.parent found]
  · intro other name node found
    rw [at?_erase below] at found
    split at found
    · contradiction
    · exact wellFormed.isName found

/-! ## Looking up what is there -/

/-- What stands at the place of a path that is short enough is found there. -/
theorem WellFormed.locate_eq_ok {tree : FileTree} (wellFormed : tree.WellFormed)
    {here place : Location} {path : Path} (names : Names tree here path place)
    (short : IsShort path) (isThere : tree.at? place ≠ none) :
    locate tree here path = .ok place := by
  rcases wellFormed.locate_cases names with ⟨located, -⟩ | ⟨-, absent⟩ | ⟨-, notShort⟩
  · exact located
  · exact absurd absent isThere
  · exact absurd short notShort

/-- A test of what stands at the place of a path that is short enough is answered. -/
theorem WellFormed.holds_eq {tree : FileTree} (wellFormed : tree.WellFormed)
    {here place : Location} {path : Path} (names : Names tree here path place)
    (short : IsShort path) (test : Node → Bool) :
    holds test tree here path = .ok ((tree.at? place).any test) := by
  rw [holds, node]
  rcases wellFormed.locate_cases names with ⟨located, -⟩ | ⟨missing, absent⟩ | ⟨-, notShort⟩
  · cases found : tree.at? place <;> simp [located, found, Bind.bind, Except.bind]
  · rcases missing with missing | missing <;> simp [missing, absent, Bind.bind, Except.bind]
  · exact absurd short notShort

theorem WellFormed.isDirectory_eq {tree : FileTree} (wellFormed : tree.WellFormed)
    {here place : Location} {path : Path} (names : Names tree here path place)
    (short : IsShort path) :
    isDirectory tree here path = .ok (decide (tree.at? place = some .directory)) := by
  rw [isDirectory, wellFormed.holds_eq names short]
  rcases tree.at? place with _ | (content | _) <;> rfl

/-- Directories are made only for a path that is short enough. -/
theorem short_of_makeWay {names : List String} {made : Bool} {location : Location}
    {tree after : FileTree} (isMade : makeWay made location names tree = (.ok (), after)) :
    Short names := by
  induction names generalizing made location tree with
  | nil => simp [Short]
  | cons name names ih =>
      rw [makeWay] at isMade
      split at isMade
      next isStep =>
        exact List.forall_mem_cons.mpr ⟨fun noStep => absurd isStep noStep, ih isMade⟩
      next noStep =>
        split at isMade
        · simp at isMade
        next notLong =>
          have shortName : name ≠ ".." → isTooLong name = false :=
            fun _ => by simpa using notLong
          split at isMade
          · exact List.forall_mem_cons.mpr ⟨shortName, ih isMade⟩
          · simp at isMade
          · exact List.forall_mem_cons.mpr ⟨shortName, ih isMade⟩

theorem isShort_of_makeDirectories {here : Location} {path : Path} {tree made : FileTree}
    (clean : path.IsClean) (isMade : makeDirectories here path tree = (.ok (), made)) :
    IsShort path := by
  rw [makeDirectories] at isMade
  rcases handOver_of_isClean clean with handed | tooLong
  · rw [handed] at isMade
    exact ⟨handed, short_of_makeWay isMade⟩
  · simp [tooLong] at isMade

/-! ## Removing -/

/-- A file that a path leads to is removed; otherwise nothing is. -/
theorem WellFormed.removeFile_cases {tree : FileTree} (wellFormed : tree.WellFormed)
    {here place : Location} {path : Path} (names : Names tree here path place) :
    (removeFile here path tree = .ok (Entries.erase place tree) ∧
        ∃ content, tree.at? place = some (.file content)) ∨
      ∃ error, removeFile here path tree = .error error ∧
        (IsShort path → ∀ content, tree.at? place ≠ some (.file content)) := by
  rw [removeFile]
  rcases wellFormed.locate_cases names with ⟨located, -⟩ | ⟨missing, absent⟩ | ⟨tooLong, notShort⟩
  · cases found : tree.at? place with
    | none => exact .inr ⟨.noEntry, by simp [located, found, Bind.bind, Except.bind], by simp⟩
    | some node =>
        cases node with
        | directory =>
            exact .inr ⟨.isDirectory, by simp [located, found, Bind.bind, Except.bind], by simp⟩
        | file content =>
            exact .inl ⟨by simp [located, found, Bind.bind, Except.bind], content, rfl⟩
  · rcases missing with missing | missing
    · exact .inr ⟨.noEntry, by simp [missing, Bind.bind, Except.bind], by simp [absent]⟩
    · exact .inr ⟨.notDirectory, by simp [missing, Bind.bind, Except.bind], by simp [absent]⟩
  · exact .inr ⟨.nameTooLong, by simp [tooLong, Bind.bind, Except.bind],
      fun short => absurd short notShort⟩

/-- An empty directory is removed. -/
theorem WellFormed.removeDirectory_eq {tree : FileTree} (wellFormed : tree.WellFormed)
    {here place : Location} {path : Path} (names : Names tree here path place)
    (short : IsShort path) (isDirectory : tree.at? place = some .directory)
    (isEmpty : ∀ name, tree.at? (place ++ [name]) = none) :
    removeDirectory here path tree = .ok (Entries.erase place tree) := by
  have located := wellFormed.locate_eq_ok names short (by simp [isDirectory])
  have noChildren : children tree place = [] :=
    List.eq_nil_iff_forall_not_mem.mpr fun name member => mem_children_iff.mp member (isEmpty name)
  simp [removeDirectory, located, isDirectory, noChildren, Bind.bind, Except.bind]

theorem at?_without {place : Location} (below : place ≠ []) (tree : FileTree)
    (location : Location) :
    FileTree.at? (without place tree) location =
      if place <+: location then none else tree.at? location := by
  by_cases atTop : location = []
  · subst atTop
    rw [if_neg (by simpa using below)]
    rfl
  · rw [at?, if_neg atTop, at?, if_neg atTop, without,
      Entries.get?_filter (fun other => !place.isPrefixOf other)]
    by_cases isBelow : place <+: location
    · simp [isBelow, List.isPrefixOf_iff_prefix.mpr isBelow]
    · simp [isBelow]

/-- A directory is removed with all that is below it. -/
theorem WellFormed.removeTree_eq {tree : FileTree} (wellFormed : tree.WellFormed)
    {here place : Location} {path : Path} (names : Names tree here path place)
    (short : IsShort path) (isThere : tree.at? place ≠ none) :
    removeTree here path tree = .ok (without place tree) := by
  have located := wellFormed.locate_eq_ok names short isThere
  obtain ⟨node, found⟩ := Option.ne_none_iff_exists'.mp isThere
  simp [removeTree, located, found, Bind.bind, Except.bind]

end FileTree

end ApiWorkshop
