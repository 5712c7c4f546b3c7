import ApiWorkshop.Proofs.Files.Kept
import ApiWorkshop.Run.NewProject

/-!
# Cleaning up after a new project

What the writes below a root left behind is removed again.  A root that was made
goes with all that is in it.  In one that was empty the files go first and then
the directories, the deepest first, so that each of them is empty when its turn
comes.  The first of them that the file system refuses to look up ends this.
-/

namespace ApiWorkshop

namespace Discard

open FileTree

/-- The place of a file below a root with a place of its own. -/
def placeOf (root : Path) (place : Location) (path : LooseText) : Location :=
  placeUnder root place (root.join (Path.ofText path))

/-- The path of a file below a root and the place that it names. -/
def target (root : Path) (place : Location) (path : LooseText) : Path × Location :=
  (root.join (Path.ofText path), placeOf root place path)

/-- A tree that differs from another one only by directories at the places of
some paths under a root. -/
def Leftover (root : Path) (place : Location) (directories : List Path)
    (tree left : FileTree) : Prop :=
  ∀ location, left.at? location = tree.at? location ∨
    (tree.at? location = none ∧ left.at? location = some .directory ∧
      ∃ directory ∈ directories, location = placeUnder root place directory)

variable {root : Path} {here place : Location} {tree left : FileTree}
  {paths : List LooseText} {directories : List Path}

theorem Leftover.keeps (leftover : Leftover root place directories tree left)
    {location : Location} (isDirectory : tree.at? location = some .directory) :
    left.at? location = some .directory := by
  rcases leftover location with same | ⟨absent, -⟩
  · rw [same, isDirectory]
  · rw [absent] at isDirectory
    contradiction

theorem Leftover.mono {others : List Path}
    (leftover : Leftover root place directories tree left) (subset : directories ⊆ others) :
    Leftover root place others tree left :=
  fun location => (leftover location).imp_right
    fun ⟨absent, isDirectory, directory, member, atDirectory⟩ =>
      ⟨absent, isDirectory, directory, subset member, atDirectory⟩

/-- A directory whose place is as before is not among those that are left. -/
theorem Leftover.tail {directory : Path}
    (leftover : Leftover root place (directory :: directories) tree left)
    (asBefore : left.at? (placeUnder root place directory) =
      tree.at? (placeUnder root place directory)) :
    Leftover root place directories tree left := by
  intro location
  rcases leftover location with same | ⟨absent, isDirectory, other, member, atOther⟩
  · exact .inl same
  · rcases List.mem_cons.mp member with rfl | inRest
    · exact .inl (atOther ▸ asBefore)
    · exact .inr ⟨absent, isDirectory, other, inRest, atOther⟩

/-- Removing one of the directories that are left leaves the others. -/
theorem Leftover.erase {directory : Path}
    (leftover : Leftover root place (directory :: directories) tree left)
    (notTop : placeUnder root place directory ≠ [])
    (absent : tree.at? (placeUnder root place directory) = none) :
    Leftover root place directories tree
      (Entries.erase (placeUnder root place directory) left) := by
  have stillLeft : Leftover root place (directory :: directories) tree
      (Entries.erase (placeUnder root place directory) left) := by
    intro location
    rw [at?_erase notTop]
    split
    next atDirectory => exact .inl (atDirectory ▸ absent.symm)
    next => exact leftover location
  exact stillLeft.tail (by rw [at?_erase notTop, if_pos rfl, absent])

/-- Below the deepest of the directories that are left there is nothing. -/
theorem Leftover.noneBelow {directory : Path} (isUnder : root.IsUnder directory)
    (areUnder : ∀ other ∈ directories, root.IsUnder other)
    (isDeepest : ∀ other ∈ directories, other.names.length ≤ directory.names.length)
    (leftover : Leftover root place (directory :: directories) tree left) {name : String}
    (absent : tree.at? (placeUnder root place directory ++ [name]) = none) :
    left.at? (placeUnder root place directory ++ [name]) = none := by
  rcases leftover (placeUnder root place directory ++ [name]) with
    same | ⟨-, -, other, member, atOther⟩
  · rw [same, absent]
  · have sameLength := congrArg List.length atOther
    rw [List.length_append, List.length_singleton] at sameLength
    have ownLength := length_placeUnder isUnder place
    rcases List.mem_cons.mp member with rfl | inRest
    · omega
    · have otherLength := length_placeUnder (areUnder other inRest) place
      have notLonger := isDeepest other inRest
      omega

/-! ## The directories that led to files -/

theorem mem_directories_iff {directory : Path} :
    directory ∈ Discard.directories root paths ↔
      ∃ path ∈ paths, directory ∈ directoriesOf root path := by
  rw [Discard.directories, List.mem_mergeSort, List.mem_eraseDups, List.mem_flatMap]

theorem mem_directoriesOf_iff {path : LooseText} (relative : (Path.ofText path).root = .relative)
    {directory : Path} :
    directory ∈ directoriesOf root path ↔
      ∃ depth < (Path.ofText path).names.length - 1,
        directory = root.join ⟨.relative, (Path.ofText path).names.take (depth + 1)⟩ := by
  rw [directoriesOf]
  simp only [relative, if_true, List.mem_map, List.mem_range, Path.join, eq_comm]

theorem isUnder_of_mem_directories
    (areBelow : ∀ path ∈ paths, (Path.ofText path).StaysBelow) {directory : Path}
    (member : directory ∈ Discard.directories root paths) : root.IsUnder directory := by
  obtain ⟨path, isPath, inPath⟩ := mem_directories_iff.mp member
  obtain ⟨relative, clean, noStep⟩ := areBelow path isPath
  obtain ⟨depth, isDepth, rfl⟩ := (mem_directoriesOf_iff relative).mp inPath
  have taken : ∀ name ∈ (Path.ofText path).names.take (depth + 1),
      name ∈ (Path.ofText path).names := fun _ => List.mem_of_mem_take
  have someNames : (Path.ofText path).names ≠ [] := by
    intro noNames
    simp [noNames] at isDepth
  exact ⟨_, ⟨rfl, by simpa using someNames, fun name inTaken => clean name (taken name inTaken),
    fun name inTaken => noStep name (taken name inTaken)⟩, rfl⟩

/-- Between the place of a root and that of a file there are only places of the
directories that led to it. -/
theorem exists_directory_of_prefix {path : LooseText}
    (relative : (Path.ofText path).root = .relative) {location : Location}
    (below : place <+: location) (apart : location ≠ place)
    (onWay : location <+: placeOf root place path)
    (notThere : location ≠ placeOf root place path) :
    ∃ directory ∈ directoriesOf root path, location = placeUnder root place directory := by
  obtain ⟨names, rfl⟩ := below
  rw [placeOf, placeUnder_join relative] at onWay notThere
  have isPrefix := (List.prefix_append_right_inj place).mp onWay
  have shorter : names.length < (Path.ofText path).names.length := by
    refine Nat.lt_of_le_of_ne (by simpa using isPrefix.length_le) fun sameLength => notThere ?_
    rw [isPrefix.eq_of_length (by simpa using sameLength)]
  have someNames : names.length ≠ 0 := by simpa using apart
  obtain ⟨depth, isDepth⟩ := Nat.exists_eq_succ_of_ne_zero someNames
  refine ⟨_, (mem_directoriesOf_iff relative).mpr ⟨depth, by omega, rfl⟩, ?_⟩
  have taken : names = ((Path.ofText path).names.take (depth + 1)).map LooseText.label := by
    rw [List.map_take, ← Nat.succ_eq_add_one, ← isDepth]
    exact List.prefix_iff_eq_take.mp isPrefix
  simp [placeUnder, Path.join, ← taken]

theorem pairwise_directories (root : Path) (paths : List LooseText) :
    (Discard.directories root paths).Pairwise fun first second =>
      second.names.length ≤ first.names.length := by
  have sorted : (Discard.directories root paths).Pairwise fun first second =>
      decide (second.names.length ≤ first.names.length) = true := by
    apply List.pairwise_mergeSort
    · intro first second third
      simp only [decide_eq_true_eq]
      omega
    · intro first second
      simp only [Bool.or_eq_true, decide_eq_true_eq]
      omega
  exact sorted.imp fun isLonger => of_decide_eq_true isLonger

/-! ## Removing the files -/

theorem dropFile_cases (wellFormed : tree.WellFormed) (names : Names tree here root place)
    {path : LooseText} (staysBelow : (Path.ofText path).StaysBelow) :
    (dropFile here root tree path = Entries.erase (placeOf root place path) tree ∧
        ∃ content, tree.at? (placeOf root place path) = some (.file content)) ∨
      (dropFile here root tree path = tree ∧ (IsShort (root.join (Path.ofText path)) →
        ∀ content, tree.at? (placeOf root place path) ≠ some (.file content))) := by
  rcases wellFormed.removeFile_cases (names.join staysBelow) with
    ⟨removed, isFile⟩ | ⟨error, refused, noFile⟩
  · refine .inl ⟨?_, isFile⟩
    simp [dropFile, placeOf, removed, Except.toOption]
  · refine .inr ⟨?_, noFile⟩
    simp [dropFile, refused, Except.toOption]

/-- Of the files at the places of paths those that can be looked up are gone, and nothing
else changed. -/
structure FilesDropped (root : Path) (place : Location) (paths : List LooseText)
    (tree left : FileTree) : Prop where
  wellFormed : left.WellFormed
  changed : ∀ location, left.at? location = tree.at? location ∨
    (left.at? location = none ∧ (∃ content, tree.at? location = some (.file content)) ∧
      ∃ path ∈ paths, location = placeOf root place path)
  gone : ∀ path ∈ paths, IsShort (root.join (Path.ofText path)) →
    ∀ content, left.at? (placeOf root place path) ≠ some (.file content)

theorem FilesDropped.keeps (dropped : FilesDropped root place paths tree left)
    {location : Location} (isDirectory : tree.at? location = some .directory) :
    left.at? location = some .directory := by
  rcases dropped.changed location with same | ⟨-, ⟨content, isFile⟩, -⟩
  · rw [same, isDirectory]
  · rw [isFile] at isDirectory
    simp at isDirectory

/-- What is gone after the first path stays gone, since no later one makes a file. -/
theorem FilesDropped.cons {path : LooseText} {next : FileTree}
    (first : FilesDropped root place [path] tree next)
    (rest : FilesDropped root place paths next left) :
    FilesDropped root place (path :: paths) tree left where
  wellFormed := rest.wellFormed
  changed := by
    intro location
    rcases rest.changed location with same | ⟨absent, ⟨content, isFile⟩, other, member, atOther⟩
    · rw [same]
      rcases first.changed location with asBefore | ⟨absent, isFile, other, member, atOther⟩
      · exact .inl asBefore
      · obtain rfl := List.mem_singleton.mp member
        exact .inr ⟨absent, isFile, other, List.mem_cons_self, atOther⟩
    · rcases first.changed location with asBefore | ⟨absentFirst, -⟩
      · exact .inr ⟨absent, ⟨content, asBefore ▸ isFile⟩, other,
          List.mem_cons_of_mem path member, atOther⟩
      · rw [absentFirst] at isFile
        contradiction
  gone := by
    refine List.forall_mem_cons.mpr ⟨fun short content => ?_, rest.gone⟩
    rcases rest.changed (placeOf root place path) with same | ⟨absent, -⟩
    · rw [same]
      exact first.gone path (List.mem_singleton_self path) short content
    · simp [absent]

theorem filesDropped_dropFile (wellFormed : tree.WellFormed)
    (names : Names tree here root place) {path : LooseText}
    (staysBelow : (Path.ofText path).StaysBelow) :
    FilesDropped root place [path] tree (dropFile here root tree path) := by
  rcases dropFile_cases wellFormed names staysBelow with
    ⟨isDropped, content, isFile⟩ | ⟨isKept, noFile⟩
  · have below : placeOf root place path ≠ [] := by
      intro atTop
      simp [atTop] at isFile
    have erased := at?_erase below tree
    rw [isDropped]
    refine ⟨wellFormed.erase below (by simp [isFile]), fun location => ?_, ?_⟩
    · rw [erased]
      split
      next atPath =>
        exact .inr ⟨rfl, ⟨content, atPath ▸ isFile⟩, path, List.mem_cons_self, atPath⟩
      next => exact .inl rfl
    · simp [erased]
  · rw [isKept]
    exact ⟨wellFormed, fun _ => .inl rfl, by simpa using noFile⟩

theorem filesDropped_dropFiles (wellFormed : tree.WellFormed)
    (names : Names tree here root place)
    (areBelow : ∀ path ∈ paths, (Path.ofText path).StaysBelow) :
    FilesDropped root place paths tree (paths.foldl (dropFile here root) tree) := by
  induction paths generalizing tree with
  | nil => exact ⟨wellFormed, fun _ => .inl rfl, by simp⟩
  | cons path paths ih =>
      obtain ⟨staysBelow, restBelow⟩ := List.forall_mem_cons.mp areBelow
      have first := filesDropped_dropFile wellFormed names staysBelow
      exact first.cons
        (ih first.wellFormed (names.of_directories fun _ => first.keeps) restBelow)

/-- Once the files are gone that were written below an empty root, only
directories are left that led to them. -/
theorem leftover_dropFiles {base : FileTree} (baseFormed : base.WellFormed)
    (isRoot : base.at? place = some .directory)
    (isEmpty : ∀ location, place <+: location → location ≠ place → base.at? location = none)
    (written : WrittenTo (paths.map (target root place)) base tree)
    (areBelow : ∀ path ∈ paths, (Path.ofText path).StaysBelow)
    (names : Names tree here root place) :
    Leftover root place (Discard.directories root paths) base
      (paths.foldl (dropFile here root) tree) := by
  have dropped := filesDropped_dropFiles written.wellFormed names areBelow
  have absentAt {path : LooseText} {content : Content}
      (isFile : tree.at? (placeOf root place path) = some (.file content)) :
      base.at? (placeOf root place path) = none := by
    refine isEmpty _ (prefix_placeUnder _ _ _) fun atRoot => ?_
    rw [atRoot, written.keeps place isRoot] at isFile
    simp at isFile
  intro location
  rcases written.reached location with same |
    ⟨found, isTarget, atFound, short, content, isFile⟩ |
    ⟨absent, isDirectory, found, isTarget, onWay, notThere⟩
  · rcases dropped.changed location with kept | ⟨left, ⟨content, isFile⟩, path, member, rfl⟩
    · exact .inl (kept.trans same)
    · exact .inl (left.trans (absentAt isFile).symm)
  · obtain ⟨path, member, rfl⟩ := List.mem_map.mp isTarget
    subst atFound
    rcases dropped.changed (placeOf root place path) with kept | ⟨left, -⟩
    · exact absurd (kept.trans isFile) (dropped.gone path member short content)
    · exact .inl (left.trans (absentAt isFile).symm)
  · obtain ⟨path, member, rfl⟩ := List.mem_map.mp isTarget
    have kept := dropped.keeps isDirectory
    have apart : location ≠ place := by
      rintro rfl
      rw [isRoot] at absent
      contradiction
    have below : place <+: location := by
      rcases List.prefix_or_prefix_of_prefix onWay (prefix_placeUnder root place _) with
        above | below
      · have isAbove := baseFormed.isDirectory_of_prefix (by simp [isRoot]) above apart
        rw [absent] at isAbove
        contradiction
      · exact below
    obtain ⟨directory, inPath, atDirectory⟩ :=
      exists_directory_of_prefix (areBelow path member).relative below apart onWay notThere
    exact .inr ⟨absent, kept, directory, mem_directories_iff.mpr ⟨path, member, inPath⟩,
      atDirectory⟩

/-! ## Removing the directories -/

/-- Whether the file system refuses to look one of some directories up. -/
def Refuses (here : Location) (directories : List Path) (tree : FileTree) : Prop :=
  ∃ directory ∈ directories, isDirectory tree here directory = .error .nameTooLong

theorem refuses_directories_iff :
    Refuses here (Discard.directories root paths) tree ↔
      ∃ path ∈ paths, Refuses here (directoriesOf root path) tree := by
  constructor
  · rintro ⟨directory, member, isRefused⟩
    obtain ⟨path, isPath, inPath⟩ := mem_directories_iff.mp member
    exact ⟨path, isPath, directory, inPath, isRefused⟩
  · rintro ⟨path, isPath, directory, inPath, isRefused⟩
    exact ⟨directory, mem_directories_iff.mpr ⟨path, isPath, inPath⟩, isRefused⟩

theorem not_refuses_of_short (wellFormed : tree.WellFormed) (names : Names tree here root place)
    (areUnder : ∀ directory ∈ directories, root.IsUnder directory)
    (areShort : ∀ directory ∈ directories, IsShort directory) :
    ¬ Refuses here directories tree := by
  rintro ⟨directory, member, isRefused⟩
  rw [wellFormed.isDirectory_eq (names.under (areUnder directory member))
    (areShort directory member)] at isRefused
  contradiction

/-- The deepest of the directories that are left is removed, if it is there and the file
system looks it up. -/
theorem exists_dropDirectories_cons {base : FileTree} (wellFormed : tree.WellFormed)
    (names : Names base here root place)
    (isEmpty : ∀ location, place <+: location → location ≠ place → base.at? location = none)
    {directory : Path} (isUnder : root.IsUnder directory)
    (areUnder : ∀ other ∈ directories, root.IsUnder other)
    (isDeepest : ∀ other ∈ directories, other.names.length ≤ directory.names.length)
    (leftover : Leftover root place (directory :: directories) base tree)
    (notRefused : isDirectory tree here directory ≠ .error .nameTooLong) :
    ∃ next : FileTree, dropDirectories here (directory :: directories) tree =
        dropDirectories here directories next ∧
      next.WellFormed ∧ Leftover root place directories base next ∧
      ∀ location, location.length < (placeUnder root place directory).length →
        next.at? location = tree.at? location := by
  have directoryNames := (names.of_directories fun _ => leftover.keeps).under isUnder
  obtain ⟨found, -, short⟩ | ⟨isRefused, -⟩ := wellFormed.isDirectory_cases directoryNames
  · rw [dropDirectories, found]
    by_cases isThere : tree.at? (placeUnder root place directory) = some .directory
    · have absentBelow (more : List String) :
          base.at? (placeUnder root place directory ++ more) = none := by
        refine isEmpty _ ((prefix_placeUnder root place directory).trans
          (List.prefix_append _ more)) fun same => placeUnder_ne isUnder place ?_
        exact List.IsPrefix.eq_of_length_le ⟨more, same⟩ (prefix_placeUnder _ _ _).length_le
      have noneBelow (name : String) :
          tree.at? (placeUnder root place directory ++ [name]) = none :=
        leftover.noneBelow isUnder areUnder isDeepest (absentBelow [name])
      have notTop : placeUnder root place directory ≠ [] := by
        intro isTop
        apply placeUnder_ne isUnder place
        have isPrefix := prefix_placeUnder root place directory
        rw [isTop] at isPrefix ⊢
        exact (List.prefix_nil.mp isPrefix).symm
      have absent : base.at? (placeUnder root place directory) = none := by
        simpa using absentBelow []
      have removed := wellFormed.removeDirectory_eq directoryNames (short isThere) isThere noneBelow
      simp only [isThere, decide_true, removed, Except.toOption, Option.getD_some]
      refine ⟨_, rfl, wellFormed.erase_empty notTop noneBelow, leftover.erase notTop absent,
        fun location shorter => ?_⟩
      rw [at?_erase notTop, if_neg]
      rintro rfl
      exact Nat.lt_irrefl _ shorter
    · simp only [isThere, decide_false]
      refine ⟨tree, rfl, wellFormed, leftover.tail ?_, fun _ _ => rfl⟩
      rcases leftover (placeUnder root place directory) with same | ⟨-, isDirectory, -⟩
      · exact same
      · exact absurd isDirectory isThere
  · exact absurd isRefused notRefused

/-- Directories that are left, the deepest first, are all removed, unless the file system
refuses to look one of them up. -/
theorem dropDirectories_cases {base : FileTree} (wellFormed : tree.WellFormed)
    (names : Names base here root place) (short : IsShort root)
    (isRoot : base.at? place = some .directory)
    (isEmpty : ∀ location, place <+: location → location ≠ place → base.at? location = none)
    (areUnder : ∀ directory ∈ directories, root.IsUnder directory)
    (deepestFirst : directories.Pairwise fun first second =>
      second.names.length ≤ first.names.length)
    (leftover : Leftover root place directories base tree) :
    let outcome := dropDirectories here directories tree
    (¬ Refuses here directories tree →
      outcome.1 = .ok () ∧ ∀ location, outcome.2.at? location = base.at? location) ∧
    (Refuses here directories tree →
      outcome.1 = .error .nameTooLong ∧ Leftover root place directories base outcome.2) := by
  induction directories generalizing tree with
  | nil =>
      refine ⟨fun _ => ⟨rfl, fun location => ?_⟩, fun ⟨_, member, _⟩ => nomatch member⟩
      rcases leftover location with same | ⟨-, -, directory, member, -⟩
      · exact same
      · contradiction
  | cons directory directories ih =>
      obtain ⟨isDeepest, restSorted⟩ := List.pairwise_cons.mp deepestFirst
      obtain ⟨isUnder, restUnder⟩ := List.forall_mem_cons.mp areUnder
      by_cases isRefused : isDirectory tree here directory = .error .nameTooLong
      · refine ⟨fun notRefused => absurd ⟨directory, List.mem_cons_self, isRefused⟩ notRefused,
          fun _ => ?_⟩
        rw [dropDirectories, isRefused]
        exact ⟨rfl, leftover⟩
      · obtain ⟨next, isNext, nextFormed, nextLeftover, sameAbove⟩ :=
          exists_dropDirectories_cons wellFormed names isEmpty isUnder restUnder isDeepest leftover
            isRefused
        have sameRefusal : Refuses here (directory :: directories) tree ↔
            Refuses here directories next := by
          have refused_iff {other : Path} (member : other ∈ directories) :
              isDirectory tree here other = .error .nameTooLong ↔
                isDirectory next here other = .error .nameTooLong := by
            refine isDirectory_tooLong_iff wellFormed nextFormed
              (names.of_directories fun _ => leftover.keeps)
              (names.of_directories fun _ => nextLeftover.keeps) short (leftover.keeps isRoot)
              (nextLeftover.keeps isRoot) (restUnder other member) fun location _ onWay apart => ?_
            -- What stands in front of the other directory is less deep than the removed one.
            rw [sameAbove]
            have shorter : location.length < (placeUnder root place other).length :=
              Nat.lt_of_le_of_ne onWay.length_le fun same => apart (onWay.eq_of_length same)
            have ownLength := length_placeUnder isUnder place
            have otherLength := length_placeUnder (restUnder other member) place
            have notLonger := isDeepest other member
            omega
          simp only [Refuses, List.exists_mem_cons_iff, isRefused, false_or]
          exact exists_congr fun other => and_congr_right refused_iff
        obtain ⟨undone, left⟩ := ih nextFormed restUnder restSorted nextLeftover
        rw [sameRefusal, isNext]
        refine ⟨undone, fun isRefused => ?_⟩
        obtain ⟨isError, stillLeft⟩ := left isRefused
        exact ⟨isError, stillLeft.mono (List.subset_cons_self _ _)⟩

end Discard

/-! ## Both ways of cleaning up -/

open FileTree Discard

variable {here place : Location} {root : Path} {base tree : FileTree}
  {operations : List FileOperation}

/-- In a root that was empty all is as it was before the writes, unless the file system
refuses to look up one of the directories that led to the files. -/
theorem discard_of_empty (baseFormed : base.WellFormed) (names : Names base here root place)
    (short : IsShort root) (isRoot : base.at? place = some .directory)
    (isEmpty : ∀ location, place <+: location → location ≠ place → base.at? location = none)
    (areBelow : ∀ path ∈ operations.map FileOperation.path, (Path.ofText path).StaysBelow)
    (written : WrittenTo ((operations.map FileOperation.path).map (target root place)) base tree) :
    let directories := Discard.directories root (operations.map FileOperation.path)
    let outcome := discard here root operations false tree
    (¬ Refuses here directories tree →
      outcome.1 = .ok () ∧ ∀ location, outcome.2.at? location = base.at? location) ∧
    (Refuses here directories tree →
      outcome.1 = .error .nameTooLong ∧ Leftover root place directories base outcome.2) := by
  intro directories outcome
  have treeNames := names.of_directories written.keeps
  have areUnder : ∀ directory ∈ directories, root.IsUnder directory :=
    fun _ member => isUnder_of_mem_directories areBelow member
  obtain ⟨leftFormed, changed, -⟩ := filesDropped_dropFiles written.wellFormed treeNames areBelow
  have leftover := leftover_dropFiles baseFormed isRoot isEmpty written areBelow treeNames
  have sameRefusal : Refuses here directories tree ↔
      Refuses here directories ((operations.map FileOperation.path).foldl (dropFile here root)
        tree) := by
    refine exists_congr fun directory => and_congr_right fun member => ?_
    refine isDirectory_tooLong_iff written.wellFormed leftFormed treeNames
      (names.of_directories fun _ => leftover.keeps) short (written.keeps place isRoot)
      (leftover.keeps isRoot) (areUnder directory member) fun location _ _ _ => ?_
    rcases changed location with same | ⟨absent, ⟨content, isFile⟩, -⟩
    · rw [same]
    · simp [absent, isFile]
  rw [sameRefusal]
  exact dropDirectories_cases leftFormed names short isRoot isEmpty areUnder
    (pairwise_directories root _) leftover

/-- A root that was made is gone with all that is below it, and nothing else has
changed. -/
theorem discard_of_made (baseFormed : base.WellFormed) (names : Names base here root place)
    (short : IsShort root) (below : place ≠ []) (isRoot : base.at? place = some .directory)
    (written : WrittenTo ((operations.map FileOperation.path).map (target root place)) base tree) :
    ∃ after, discard here root operations true tree = (.ok (), after) ∧
      ∀ location, after.at? location =
        if place <+: location then none else base.at? location := by
  have removed := written.wellFormed.removeTree_eq (names.of_directories written.keeps) short
    (by simp [written.keeps place isRoot])
  refine ⟨without place tree, by simp [discard, removed, Except.toOption], fun location => ?_⟩
  rw [at?_without below]
  split
  · rfl
  next notBelow =>
    rcases written.reached location with same | ⟨found, isTarget, rfl, -⟩ |
      ⟨absent, -, found, isTarget, onWay, -⟩
    · exact same
    · obtain ⟨path, -, rfl⟩ := List.mem_map.mp isTarget
      exact absurd (prefix_placeUnder root place _) notBelow
    · obtain ⟨path, -, rfl⟩ := List.mem_map.mp isTarget
      rcases List.prefix_or_prefix_of_prefix onWay (prefix_placeUnder root place _) with
        above | below
      · have isAbove := baseFormed.isDirectory_of_prefix (by simp [isRoot]) above
          (fun same => notBelow (same ▸ List.prefix_rfl))
        rw [absent] at isAbove
        contradiction
      · exact absurd below notBelow

end ApiWorkshop
