import ApiWorkshop.Files.Tree
import ApiWorkshop.Proofs.Entries

/-!
# Places in a file tree

In a tree where everything stands in a directory, a path names one place, no
matter which of the directories on the way are there.  Walking along the path
leads to that place or shows that nothing stands there, and making the
directories on the way changes nothing else.
-/

namespace ApiWorkshop

namespace FileTree

/-! ## What stands where -/

@[simp]
theorem at?_nil (tree : FileTree) : tree.at? [] = some .directory :=
  rfl

theorem at?_put {location : Location} (below : location ≠ []) (node : Node) (tree : FileTree)
    (other : Location) :
    FileTree.at? (Entries.put location node tree) other =
      if other = location then some node else tree.at? other := by
  by_cases same : other = location
  · simp [at?, same, below, Entries.get?_put_self]
  · simp [at?, same, Entries.get?_put_of_ne same]

theorem at?_erase {location : Location} (below : location ≠ []) (tree : FileTree)
    (other : Location) :
    FileTree.at? (Entries.erase location tree) other =
      if other = location then none else tree.at? other := by
  by_cases same : other = location
  · simp [at?, same, below, Entries.get?_erase_self]
  · simp [at?, same, Entries.get?_erase_of_ne same]

/-- What the file at a location holds. -/
def fileAt? (tree : FileTree) (location : Location) : Option Content :=
  match tree.at? location with
  | some (.file content) => some content
  | _ => none

theorem mem_of_fileAt? {tree : FileTree} {location : Location} {content : Content}
    (found : tree.fileAt? location = some content) : (location, .file content) ∈ tree := by
  rw [fileAt?] at found
  split at found
  next isFile =>
    obtain rfl := Option.some.inj found
    rw [at?] at isFile
    split at isFile
    · simp at isFile
    · exact Entries.mem_of_get? isFile
  next => contradiction

/-- A name of a file or directory: not a step, and without a null character. -/
def IsName (name : String) : Prop :=
  name ≠ ".." ∧ '\x00' ∉ name.toList

/-- Everything stands in a directory and has a name. -/
structure WellFormed (tree : FileTree) : Prop where
  parent : ∀ {location : Location} {name : String} {node : Node},
    tree.at? (location ++ [name]) = some node → tree.at? location = some .directory
  isName : ∀ {location : Location} {name : String} {node : Node},
    tree.at? (location ++ [name]) = some node → IsName name

instance : DecidablePred IsName :=
  fun name => inferInstanceAs (Decidable (name ≠ ".." ∧ '\x00' ∉ name.toList))

/-- A tree is well formed if each of its entries stands in a directory. -/
theorem wellFormed_of_entries {tree : FileTree}
    (entries : ∀ entry ∈ tree, ∀ name ∈ entry.1.getLast?,
      tree.at? entry.1.dropLast = some .directory ∧ IsName name) : tree.WellFormed := by
  have found {location : Location} {name : String} {node : Node}
      (isFound : tree.at? (location ++ [name]) = some node) :
      tree.at? location = some .directory ∧ IsName name := by
    have isEntry : Entries.get? (location ++ [name]) tree = some node := by
      simpa [at?] using isFound
    simpa using entries _ (Entries.mem_of_get? isEntry) name (by simp)
  exact ⟨fun isFound => (found isFound).1, fun isFound => (found isFound).2⟩

theorem WellFormed.congr {tree other : FileTree} (wellFormed : tree.WellFormed)
    (same : ∀ location, other.at? location = tree.at? location) : other.WellFormed := by
  constructor
  · intro location name node found
    rw [same] at found ⊢
    exact wellFormed.parent found
  · intro location name node found
    rw [same] at found
    exact wellFormed.isName found

/-- Something new may stand in a directory, and a file may be written over. -/
theorem WellFormed.put {tree : FileTree} (wellFormed : tree.WellFormed) {location : Location}
    {name : String} (parent : tree.at? location = some .directory) (isName : IsName name)
    {node : Node}
    (kept : node = .directory ∨ tree.at? (location ++ [name]) ≠ some .directory) :
    FileTree.WellFormed (Entries.put (location ++ [name]) node tree) := by
  have below : location ++ [name] ≠ [] := by simp
  constructor
  · intro other otherName found isFound
    rw [at?_put below] at isFound ⊢
    have stays : tree.at? other = some .directory → (if other = location ++ [name] then some node
        else tree.at? other) = some .directory := by
      intro isDirectory
      split
      next same =>
        subst same
        rcases kept with rfl | noDirectory
        · rfl
        · exact absurd isDirectory noDirectory
      next => exact isDirectory
    split at isFound
    next same =>
      obtain ⟨rfl, -⟩ := List.append_inj' same rfl
      exact stays parent
    next => exact stays (wellFormed.parent isFound)
  · intro other otherName found isFound
    rw [at?_put below] at isFound
    split at isFound
    next same =>
      obtain ⟨-, sameName⟩ := List.append_inj' same rfl
      obtain rfl := List.singleton_inj.mp sameName
      exact isName
    next => exact wellFormed.isName isFound

/-- A file can be taken away. -/
theorem WellFormed.erase {tree : FileTree} (wellFormed : tree.WellFormed) {location : Location}
    (below : location ≠ []) (noDirectory : tree.at? location ≠ some .directory) :
    FileTree.WellFormed (Entries.erase location tree) := by
  constructor
  · intro other name node found
    rw [at?_erase below] at found ⊢
    split at found
    · simp at found
    · have parent := wellFormed.parent found
      have different : other ≠ location := by
        rintro rfl
        exact noDirectory parent
      rw [if_neg different, parent]
  · intro other name node found
    rw [at?_erase below] at found
    split at found
    · simp at found
    · exact wellFormed.isName found

/-- Nothing stands below what is no directory. -/
theorem WellFormed.at?_below {tree : FileTree} (wellFormed : tree.WellFormed)
    {location : Location} (noDirectory : tree.at? location ≠ some .directory) (names : List String)
    (someNames : names ≠ []) : tree.at? (location ++ names) = none := by
  induction names generalizing location with
  | nil => contradiction
  | cons name names ih =>
      have absent : tree.at? (location ++ [name]) = none := by
        cases found : tree.at? (location ++ [name]) with
        | none => rfl
        | some node => exact absurd (wellFormed.parent found) noDirectory
      cases names with
      | nil => exact absent
      | cons next names =>
          have noDirectoryBelow : tree.at? (location ++ [name]) ≠ some .directory := by
            simp [absent]
          simpa using ih noDirectoryBelow (by simp)

/-! ## The place of a path -/

/-- The place that names lead to from a location.  A step back has to leave a
directory that is there; what else is there does not matter. -/
def place? (tree : FileTree) : Location → List String → Option Location
  | location, [] => some location
  | location, name :: names =>
      if name = ".." then
        if tree.at? location = some .directory then
          place? tree location.dropLast names
        else
          none
      else
        place? tree (location ++ [name]) names

theorem place?_append (tree : FileTree) (location : Location) (names more : List String) :
    place? tree location (names ++ more) =
      (place? tree location names).bind fun directory => place? tree directory more := by
  induction names generalizing location with
  | nil => rfl
  | cons name names ih =>
      by_cases isStep : name = ".."
      · by_cases isDirectory : tree.at? location = some .directory
        · simp [place?, isStep, isDirectory, ih]
        · simp [place?, isStep, isDirectory]
      · simp [place?, isStep, ih]

/-- A place stays the same as long as no directory goes away. -/
theorem place?_of_directories {tree other : FileTree}
    (keeps : ∀ location, tree.at? location = some .directory →
      other.at? location = some .directory)
    {location place : Location} {names : List String}
    (named : place? tree location names = some place) :
    place? other location names = some place := by
  induction names generalizing location with
  | nil => exact named
  | cons name names ih =>
      by_cases isStep : name = ".."
      · by_cases isDirectory : tree.at? location = some .directory
        · simp only [place?, isStep, isDirectory, if_true] at named
          simp only [place?, isStep, keeps location isDirectory, if_true]
          exact ih named
        · simp [place?, isStep, isDirectory] at named
      · simp only [place?, isStep, if_false] at named ⊢
        exact ih named

/-- Away from the directories that are there, a path goes down only. -/
theorem WellFormed.place?_eq {tree : FileTree} (wellFormed : tree.WellFormed)
    {location place : Location} (noDirectory : tree.at? location ≠ some .directory)
    {names : List String} (named : place? tree location names = some place) :
    place = location ++ names := by
  induction names generalizing location with
  | nil => simpa [place?] using named.symm
  | cons name names ih =>
      by_cases isStep : name = ".."
      · simp [place?, isStep, noDirectory] at named
      · simp only [place?, isStep, if_false] at named
        have below := wellFormed.at?_below noDirectory [name] (by simp)
        rw [ih (by simp [below]) named]
        simp

theorem WellFormed.at?_dropLast {tree : FileTree} (wellFormed : tree.WellFormed)
    {location : Location} (isDirectory : tree.at? location = some .directory) :
    tree.at? location.dropLast = some .directory := by
  rcases List.eq_nil_or_concat location with rfl | ⟨parent, name, rfl⟩
  · simp
  · rw [List.concat_eq_append] at isDirectory ⊢
    simpa using wellFormed.parent isDirectory

/-- No name is too long to be looked up. -/
def Short (names : List String) : Prop :=
  ∀ name ∈ names, name ≠ ".." → isTooLong name = false

/-- Walking along a path leads to its place, unless nothing stands there or a
name is too long. -/
theorem WellFormed.walk_cases {tree : FileTree} (wellFormed : tree.WellFormed)
    {location place : Location} {names : List String}
    (named : place? tree location names = some place) :
    (walk tree location names = .ok place ∧ Short names) ∨
      ((walk tree location names = .error .noEntry ∨
          walk tree location names = .error .notDirectory) ∧ tree.at? place = none) ∨
      (walk tree location names = .error .nameTooLong ∧ ¬ Short names) := by
  induction names generalizing location with
  | nil => exact .inl ⟨by simpa [place?, walk] using named, by simp [Short]⟩
  | cons name names ih =>
      by_cases isDirectory : tree.at? location = some .directory
      · by_cases isStep : name = ".."
        · simp only [place?, isStep, isDirectory, if_true] at named
          simpa [walk, isDirectory, isStep, Short] using ih named
        · simp only [place?, isStep, if_false] at named
          cases tooLong : isTooLong name with
          | true => exact .inr (.inr ⟨by simp [walk, isDirectory, isStep, tooLong],
              fun short => by simpa [tooLong] using short name (by simp) isStep⟩)
          | false => simpa [walk, isDirectory, isStep, tooLong, Short] using ih named
      · have below := wellFormed.place?_eq isDirectory named
        have absent := wellFormed.at?_below isDirectory (name :: names) (by simp)
        refine .inr (.inl ⟨?_, by rw [below, absent]⟩)
        cases found : tree.at? location with
        | none => exact .inl (by simp [walk, found])
        | some node =>
            cases node with
            | directory => exact absurd found isDirectory
            | file content => exact .inr (by simp [walk, found])

end FileTree

end ApiWorkshop
