import Mathlib.Data.List.Nodup
import ApiWorkshop.Proofs.Files.Landing

/-!
# Trees that are kept

A tree is kept by another one in which everything of it stands as it was.  Then
every path that led somewhere still leads there and is read as before.  What is
new shows only in the names of a directory; those that stood for something before
are the same up to their order.  A path that is refused because a
name in it is too long is refused in every tree with the same directories in
front of that name.
-/

namespace ApiWorkshop

namespace FileTree

/-- Everything of a tree stands in another one as it was. -/
def Kept (tree after : FileTree) : Prop :=
  ∀ location node, tree.at? location = some node → after.at? location = some node

/-! ## Paths -/

section Paths

variable {tree after : FileTree} {here place : Location} {path : Path}

theorem Kept.walk_eq (kept : Kept tree after) {location : Location} {names : List String}
    (walked : walk tree location names = .ok place) : walk after location names = .ok place := by
  induction names generalizing location with
  | nil => exact walked
  | cons name names ih =>
      obtain ⟨isDirectory, short, walked⟩ := walk_cons_eq_ok_iff.mp walked
      exact walk_cons_eq_ok_iff.mpr ⟨kept _ _ isDirectory, short, ih walked⟩

theorem Kept.locate_eq (kept : Kept tree after) (located : locate tree here path = .ok place) :
    locate after here path = .ok place := by
  cases handed : handOver path with
  | error error => simp [locate, handed, Bind.bind, Except.bind] at located
  | ok names =>
      simp only [locate, handed, Bind.bind, Except.bind] at located ⊢
      exact kept.walk_eq located

theorem node_eq_ok_iff {found : Node} :
    node tree here path = .ok found ↔
      ∃ place, locate tree here path = .ok place ∧ tree.at? place = some found := by
  cases located : locate tree here path with
  | error error => simp [node, located, Bind.bind, Except.bind]
  | ok place =>
      cases isThere : tree.at? place <;> simp [node, located, isThere, Bind.bind, Except.bind]

theorem Kept.node_eq (kept : Kept tree after) {found : Node}
    (isFound : node tree here path = .ok found) : node after here path = .ok found := by
  obtain ⟨place, located, isThere⟩ := node_eq_ok_iff.mp isFound
  exact node_eq_ok_iff.mpr ⟨place, kept.locate_eq located, kept _ _ isThere⟩

theorem exists_node_of_holds {test : Node → Bool} (isHeld : holds test tree here path = .ok true) :
    ∃ found, node tree here path = .ok found ∧ test found = true := by
  rw [holds] at isHeld
  split at isHeld
  next found isFound => exact ⟨found, isFound, Except.ok.inj isHeld⟩
  · simp at isHeld
  · simp at isHeld
  · split at isHeld <;> simp at isHeld

theorem holds_of_node {test : Node → Bool} {found : Node}
    (isFound : node tree here path = .ok found) : holds test tree here path = .ok (test found) := by
  rw [holds, isFound]

theorem Kept.holds_eq (kept : Kept tree after) {test : Node → Bool}
    (isHeld : holds test tree here path = .ok true) : holds test after here path = .ok true := by
  obtain ⟨found, isFound, passes⟩ := exists_node_of_holds isHeld
  rw [holds_of_node (kept.node_eq isFound), passes]

theorem holds_congr {test : Node → Bool} (same : node after here path = node tree here path) :
    holds test after here path = holds test tree here path := by
  rw [holds, holds, same]

theorem exists_file_of_isFile (isFile : isFile tree here path = .ok true) :
    ∃ content, node tree here path = .ok (.file content) := by
  obtain ⟨found, isFound, passes⟩ := exists_node_of_holds isFile
  cases found with
  | file content => exact ⟨content, isFound⟩
  | directory => simp [Node.isFile] at passes

theorem Kept.isFile_eq (kept : Kept tree after) (isFile : isFile tree here path = .ok true) :
    FileTree.isFile after here path = .ok true ∧
      FileTree.isDirectory after here path = .ok false := by
  obtain ⟨content, found⟩ := exists_file_of_isFile isFile
  exact ⟨holds_of_node (kept.node_eq found), holds_of_node (kept.node_eq found)⟩

theorem exists_place_of_isDirectory (isDirectory : isDirectory tree here path = .ok true) :
    ∃ place, locate tree here path = .ok place ∧ tree.at? place = some .directory := by
  obtain ⟨found, isFound, passes⟩ := exists_node_of_holds isDirectory
  obtain ⟨place, located, isThere⟩ := node_eq_ok_iff.mp isFound
  cases found with
  | file content => simp [Node.isFile] at passes
  | directory => exact ⟨place, located, isThere⟩

theorem readText_congr (same : node after here path = node tree here path) :
    readText after here path = readText tree here path := by
  simp only [readText, same]

theorem readLines_congr (same : node after here path = node tree here path) :
    readLines after here path = readLines tree here path := by
  simp only [readLines, readText_congr same]

/-! ## What stands in a directory -/

theorem walk_append {location : Location} {names : List String}
    (walked : walk tree location names = .ok place) (more : List String) :
    walk tree location (names ++ more) = walk tree place more := by
  induction names generalizing location with
  | nil =>
      obtain rfl := Except.ok.inj walked
      rfl
  | cons name names ih =>
      obtain ⟨isDirectory, short, walked⟩ := walk_cons_eq_ok_iff.mp walked
      rw [List.cons_append, walk_cons isDirectory short, ih walked]

/-- A path that goes on with one name from a path that is located goes on from its
place, if it can be handed over. -/
theorem locate_join (located : locate tree here path = .ok place) {child : Path} {name : String}
    (relative : child.root = .relative) (isChild : child.names.map LooseText.label = [name]) :
    locate tree here (path.join child) =
      (handOver (path.join child)).bind fun _ => walk tree place [name] := by
  cases handed : handOver (path.join child) with
  | error error => simp [locate, handed, Bind.bind, Except.bind]
  | ok names =>
      obtain rfl := names_of_handOver handed
      have sameStart : start here (path.join child) = start here path := by
        simp [start, Path.join, relative]
      have walked : walk tree (start here path) (path.names.map LooseText.label) = .ok place := by
        cases handedBase : handOver path with
        | error error => simp [locate, handedBase, Bind.bind, Except.bind] at located
        | ok names =>
            obtain rfl := names_of_handOver handedBase
            simpa [locate, handedBase, Bind.bind, Except.bind] using located
      have isJoined : (path.join child).names.map LooseText.label =
          path.names.map LooseText.label ++ [name] := by
        simp [Path.join, relative, isChild]
      simp only [locate, handed, Bind.bind, Except.bind, sameStart, isJoined]
      exact walk_append walked [name]

/-- What a name in a directory stands for is found as before. -/
theorem Kept.node_child_eq (kept : Kept tree after) (located : locate tree here path = .ok place)
    (isDirectory : tree.at? place = some .directory) {child : Path} {name : String}
    (relative : child.root = .relative) (isChild : child.names.map LooseText.label = [name])
    (noStep : name ≠ "..") (isThere : tree.at? (place ++ [name]) ≠ none) :
    node after here (path.join child) = node tree here (path.join child) := by
  obtain ⟨found, isFound⟩ := Option.ne_none_iff_exists'.mp isThere
  rw [node, node, locate_join located relative isChild,
    locate_join (kept.locate_eq located) relative isChild]
  cases handOver (path.join child) with
  | error error => rfl
  | ok names =>
      simp only [Except.bind, walk, isDirectory, kept _ _ isDirectory, noStep, if_false]
      cases isTooLong name with
      | true => rfl
      | false => simp [Bind.bind, Except.bind, isFound, kept _ _ isFound]

/-- A directory that is found under its name is no file. -/
theorem isFile_child_of_directory (located : locate tree here path = .ok place)
    (isDirectory : tree.at? place = some .directory) {child : Path} {name : String}
    (relative : child.root = .relative) (isChild : child.names.map LooseText.label = [name])
    (noStep : name ≠ "..") (short : IsShort (path.join child))
    (isThere : tree.at? (place ++ [name]) = some .directory) :
    isFile tree here (path.join child) = .ok false := by
  have inNames : name ∈ (path.join child).names.map LooseText.label := by
    simp [Path.join, relative, isChild]
  have isLocated : locate tree here (path.join child) = .ok (place ++ [name]) := by
    rw [locate_join located relative isChild, short.1]
    exact walk_cons_eq_ok_iff.mpr ⟨isDirectory, short.2 name inNames,
      by simp [step, noStep, walk]⟩
  exact holds_of_node (node_eq_ok_iff.mpr ⟨_, isLocated, isThere⟩)

/-! ## Paths that are refused -/

/-- Whether names without steps are refused for their length depends on the directories in
front of the last one only. -/
theorem walk_tooLong_iff {other : FileTree} {location : Location} {names : List String}
    (noStep : ∀ name ∈ names, name ≠ "..")
    (same : ∀ front, front <+: names → front ≠ names →
      (tree.at? (location ++ front) = some .directory ↔
        other.at? (location ++ front) = some .directory)) :
    walk tree location names = .error .nameTooLong ↔
      walk other location names = .error .nameTooLong := by
  induction names generalizing location with
  | nil => rfl
  | cons name names ih =>
      obtain ⟨notStep, restNoStep⟩ := List.forall_mem_cons.mp noStep
      have sameFirst : tree.at? location = some .directory ↔
          other.at? location = some .directory := by
        simpa using same [] List.nil_prefix (by simp)
      have elsewhere {tree : FileTree} (noDirectory : tree.at? location ≠ some .directory) :
          walk tree location (name :: names) ≠ .error .nameTooLong := by
        rw [walk]
        split <;> simp_all
      by_cases isDirectory : tree.at? location = some .directory
      · rw [walk, walk, isDirectory, sameFirst.mp isDirectory]
        dsimp only
        rw [if_neg notStep, if_neg notStep]
        split
        · rfl
        · refine ih restNoStep fun front isPrefix apart => ?_
          simpa using same (name :: front) (List.cons_prefix_cons.mpr ⟨rfl, isPrefix⟩)
            (by simpa using apart)
      · exact iff_of_false (elsewhere isDirectory)
          (elsewhere fun isOther => isDirectory (sameFirst.mpr isOther))

/-- Whether a path leads to a directory is told by what stands at its place, unless the
system refuses to look the path up. -/
theorem WellFormed.isDirectory_cases (wellFormed : tree.WellFormed)
    (names : Names tree here path place) :
    (isDirectory tree here path = .ok (decide (tree.at? place = some .directory)) ∧
        locate tree here path ≠ .error .nameTooLong ∧
        (tree.at? place = some .directory → IsShort path)) ∨
      (isDirectory tree here path = .error .nameTooLong ∧
        locate tree here path = .error .nameTooLong) := by
  rcases wellFormed.locate_cases names with ⟨located, short⟩ | ⟨missing, absent⟩ | ⟨tooLong, -⟩
  · exact .inl ⟨wellFormed.isDirectory_eq names short, by simp [located], fun _ => short⟩
  · refine .inl ⟨?_, ?_, by simp [absent]⟩
    · rcases missing with missing | missing <;>
        simp [isDirectory, holds, node, missing, absent, Bind.bind, Except.bind]
    · rcases missing with missing | missing <;> simp [missing]
  · exact .inr ⟨by simp [isDirectory, holds, node, tooLong, Bind.bind, Except.bind,
      FileError.isFromSystem], tooLong⟩

/-- Whether a path under a root is refused depends on the directories in front of its place
only. -/
theorem isDirectory_tooLong_iff {other : FileTree} {root : Path} (wellFormed : tree.WellFormed)
    (otherFormed : other.WellFormed) (names : Names tree here root place)
    (otherNames : Names other here root place) (short : IsShort root)
    (isRoot : tree.at? place = some .directory) (isOtherRoot : other.at? place = some .directory)
    (isUnder : root.IsUnder path)
    (same : ∀ location, place <+: location → location <+: placeUnder root place path →
      location ≠ placeUnder root place path →
        (tree.at? location = some .directory ↔ other.at? location = some .directory)) :
    isDirectory tree here path = .error .nameTooLong ↔
      isDirectory other here path = .error .nameTooLong := by
  have refused_iff {tree : FileTree} (wellFormed : tree.WellFormed)
      (names : Names tree here root place) :
      isDirectory tree here path = .error .nameTooLong ↔
        locate tree here path = .error .nameTooLong := by
    rcases wellFormed.isDirectory_cases (names.under isUnder) with
      ⟨isOk, found, -⟩ | ⟨isError, refused⟩
    · exact iff_of_false (by simp [isOk]) found
    · exact iff_of_true isError refused
  rw [refused_iff wellFormed names, refused_iff otherFormed otherNames]
  cases handed : handOver path with
  | error error => simp [locate, handed, Bind.bind, Except.bind]
  | ok labels =>
      obtain rfl := names_of_handOver handed
      obtain ⟨inner, isInner, rfl⟩ := isUnder
      have sameStart : start here (root.join inner) = start here root := by
        rw [start, start, Path.root_join isInner.relative]
      have atRoot {tree : FileTree} (wellFormed : tree.WellFormed)
          (names : Names tree here root place) (isRoot : tree.at? place = some .directory) :
          locate tree here (root.join inner) =
            walk tree place (inner.names.map LooseText.label) := by
        have located := wellFormed.locate_eq_ok names short (by simp [isRoot])
        simp only [locate, short.1, Bind.bind, Except.bind] at located
        simp only [locate, handed, Bind.bind, Except.bind, sameStart,
          Path.names_join isInner.relative, List.map_append]
        exact walk_append located _
      rw [atRoot wellFormed names isRoot, atRoot otherFormed otherNames isOtherRoot]
      refine walk_tooLong_iff (List.forall_mem_map.mpr isInner.noStep)
        fun front isPrefix apart => ?_
      refine same _ (List.prefix_append _ _) ?_ ?_
      · rw [placeUnder_join isInner.relative]
        exact (List.prefix_append_right_inj place).mpr isPrefix
      · rw [placeUnder_join isInner.relative]
        simpa using apart

end Paths

theorem children_eq (tree : FileTree) (location : Location) :
    children tree location = (Entries.keys tree).filterMap fun key =>
      match key.getLast? with
      | some name => if key.dropLast = location then some name else none
      | none => none := by
  rw [children, Entries.keys, List.filterMap_map]
  rfl

theorem nodup_children {tree : FileTree} (distinct : (Entries.keys tree).Nodup)
    (location : Location) : (children tree location).Nodup := by
  rw [children_eq]
  refine distinct.filterMap fun first second name isFirst isSecond => ?_
  have eq_of_isChild {key : Location} (isChild : name ∈ (match key.getLast? with
      | some name => if key.dropLast = location then some name else none
      | none => none)) : key = location ++ [name] := by
    rcases List.eq_nil_or_concat key with rfl | ⟨parent, last, rfl⟩
    · simp at isChild
    · simp at isChild
      simp [isChild]
  rw [eq_of_isChild isFirst, eq_of_isChild isSecond]

/-- What was in a directory is among what is in it afterwards. -/
theorem perm_children {tree after : FileTree} (distinct : (Entries.keys tree).Nodup)
    (afterDistinct : (Entries.keys after).Nodup) (kept : Kept tree after) (location : Location) :
    ((children after location).filter fun name => (tree.at? (location ++ [name])).isSome).Perm
      (children tree location) := by
  rw [List.perm_ext_iff_of_nodup ((nodup_children afterDistinct location).filter _)
    (nodup_children distinct location)]
  intro name
  simp only [List.mem_filter, mem_children_iff, Option.isSome_iff_ne_none, and_iff_right_iff_imp]
  intro isThere
  obtain ⟨node, found⟩ := Option.ne_none_iff_exists'.mp isThere
  simp [kept _ _ found]

end FileTree

end ApiWorkshop
