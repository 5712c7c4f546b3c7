import ApiWorkshop.Proofs.Run.Conflicts
import ApiWorkshop.Proofs.Run.Discard

/-!
# Runs that create files

A run whose operations all create files below one root looks at no file before
it writes.  It ends with a report, whatever writes fail, and reaches nothing but
the places of its files and the ways to them.  So cleaning up undoes it, as far as
the file system lets the directories be looked up that led to the files.
-/

namespace ApiWorkshop

/-- Operations that create files below a root, with drafts that have bytes. -/
def Creations (operations : List FileOperation) : Prop :=
  ∀ operation ∈ operations, operation.change = .create ∧ operation.content.whole = true ∧
    (Path.ofText operation.path).StaysBelow

theorem Creations.filter {operations : List FileOperation} (creations : Creations operations)
    (keep : FileOperation → Bool) : Creations (operations.filter keep) :=
  fun operation member => creations operation (List.mem_filter.mp member).1

namespace Apply

open FileTree Discard

variable {faults : LooseText → WriteFaults} {here place : Location} {root : Path}
  {snapshot : Snapshot} {operations : List FileOperation}

/-! ## What is written -/

theorem plannedDraft_of_creations (creations : Creations operations) (snapshot : Snapshot)
    (path : LooseText) :
    plannedDraft snapshot path operations = operations.head?.map FileOperation.content := by
  cases operations with
  | nil => rfl
  | cons operation operations =>
      obtain ⟨isCreate, -⟩ := creations operation List.mem_cons_self
      simp [plannedDraft, wholeDraft?, isCreate]

theorem mergedDraft_of_creations (creations : Creations operations) (tree : FileTree)
    (here : Location) (root : Path) (snapshot : Snapshot) (path : LooseText) :
    mergedDraft tree here root snapshot path operations =
      .ok (plannedDraft snapshot path operations) := by
  rw [plannedDraft_of_creations creations]
  cases operations with
  | nil => rfl
  | cons operation operations =>
      obtain ⟨isCreate, -⟩ := creations operation List.mem_cons_self
      simp [mergedDraft, wholeDraft?, isCreate]

theorem creations_of_mem_byPath (creations : Creations operations)
    {group : LooseText × List FileOperation} (member : group ∈ byPath operations) :
    Creations group.2 := by
  rw [eq_filter_of_mem_byPath member]
  exact creations.filter _

theorem mem_keys_byPath_iff {path : LooseText} :
    path ∈ Entries.keys (byPath operations) ↔ path ∈ operations.map FileOperation.path := by
  induction operations using List.reverseRecOn with
  | nil => simp [byPath, Entries.keys]
  | append_singleton operations operation ih =>
      rw [byPath_concat, Entries.mem_keys_put, ih, List.map_append, List.mem_append, or_comm]
      simp [eq_comm]

/-- What is written is the content of an operation. -/
theorem exists_operation_of_mem_writes (creations : Creations operations)
    {write : LooseText × Draft} (member : write ∈ writes snapshot (byPath operations)) :
    ∃ operation ∈ operations, operation.path = write.1 ∧ operation.content = write.2 := by
  obtain ⟨group, inGroups, isWrite⟩ := List.mem_filterMap.mp member
  obtain ⟨draft, isDraft, rfl⟩ := Option.map_eq_some_iff.mp isWrite
  rw [plannedDraft_of_creations (creations_of_mem_byPath creations inGroups)] at isDraft
  obtain ⟨operation, isFirst, rfl⟩ := Option.map_eq_some_iff.mp isDraft
  have inGroup := List.mem_of_head? isFirst
  rw [eq_filter_of_mem_byPath inGroups] at inGroup
  obtain ⟨isOperation, samePath⟩ := List.mem_filter.mp inGroup
  exact ⟨operation, isOperation, of_decide_eq_true samePath, rfl⟩

/-- Every operation has its path written to. -/
theorem exists_write_of_creations (creations : Creations operations) {operation : FileOperation}
    (member : operation ∈ operations) (snapshot : Snapshot) :
    ∃ draft, (operation.path, draft) ∈ writes snapshot (byPath operations) := by
  have onPath : operation ∈ operations.filter (·.path = operation.path) :=
    List.mem_filter.mpr ⟨member, by simp⟩
  rw [← getD_get?_byPath] at onPath
  cases found : Entries.get? operation.path (byPath operations) with
  | none => simp [found] at onPath
  | some group =>
      rw [found, Option.getD_some] at onPath
      have inGroups := Entries.mem_of_get? found
      have isDraft := plannedDraft_of_creations (creations_of_mem_byPath creations inGroups)
        snapshot operation.path
      refine ⟨(group.head (List.ne_nil_of_mem onPath)).content,
        List.mem_filterMap.mpr ⟨_, inGroups, ?_⟩⟩
      rw [isDraft, List.head?_eq_some_head (List.ne_nil_of_mem onPath)]
      rfl

/-! ## What is reached -/

theorem writtenTo_writeFile {tree : FileTree} (wellFormed : tree.WellFormed) {path : LooseText}
    (allOrNothing : (faults path).AllOrNothing) (isHere : tree.at? here = some .directory)
    (names : Names tree here root place) (isRoot : tree.at? place = some .directory)
    (staysBelow : (Path.ofText path).StaysBelow) (snapshot : Snapshot)
    (operations : List FileOperation) :
    WrittenTo [target root place path] tree
      (writeFile faults here root snapshot path operations tree).2 := by
  -- A path without names leads to the root itself, which is a directory.
  have hasPlace : endsInName (root.join (Path.ofText path)) = true ∨
      tree.at? (placeOf root place path) = some .directory := by
    by_cases someNames : (Path.ofText path).names = []
    · right
      rw [placeOf, placeUnder_join staysBelow.relative, someNames, List.map_nil, List.append_nil]
      exact isRoot
    · exact .inl (endsInName_of_isUnder ⟨_, staysBelow.isInner someNames, rfl⟩)
  rw [writeFile]
  split
  · exact wellFormed.writtenTo_self _
  · exact wellFormed.writtenTo_self _
  next draft _ =>
    have written := wellFormed.writtenTo_atomicWrite allOrNothing isHere (names.join staysBelow)
      hasPlace draft
    split
    next isWrite => rwa [isWrite] at written
    next isWrite => rwa [isWrite] at written

/-- Whatever fails on the way, a run reaches only the places of its files and the
ways to them. -/
theorem writtenTo_writeAll (allOrNothing : ∀ path, (faults path).AllOrNothing) {tree : FileTree}
    (wellFormed : tree.WellFormed) (isHere : tree.at? here = some .directory)
    (names : Names tree here root place) (isRoot : tree.at? place = some .directory)
    {groups : Entries LooseText (List FileOperation)}
    (areBelow : ∀ path ∈ Entries.keys groups, (Path.ofText path).StaysBelow) (snapshot : Snapshot)
    (failures : Entries LooseText Failure) :
    WrittenTo ((Entries.keys groups).map (target root place)) tree
      (writeAll faults here root snapshot groups failures tree).2 := by
  induction groups generalizing failures tree with
  | nil => exact wellFormed.writtenTo_self _
  | cons group groups ih =>
      obtain ⟨path, operations⟩ := group
      obtain ⟨staysBelow, restBelow⟩ := List.forall_mem_cons.mp areBelow
      have first := writtenTo_writeFile wellFormed (allOrNothing path)
        isHere names isRoot staysBelow snapshot operations
      have rest (noted : Entries LooseText Failure) := (first.mono (by simp [Entries.keys])).trans
        ((ih first.wellFormed (first.keeps here isHere) (names.of_directories first.keeps)
          (first.keeps place isRoot) restBelow noted).mono
            (List.subset_cons_self (target root place path) _))
      rw [writeAll]
      generalize writeFile faults here root snapshot path operations tree = outcome at first rest
      obtain ⟨result, next⟩ := outcome
      cases result with
      | ok _ => exact rest failures
      | error error =>
          dsimp only
          split
          · exact rest _
          · exact first.mono (by simp [Entries.keys])

/-- A run of creations ends with a report of the writes that failed, and those
with a fault are among them. -/
theorem applyOperations_of_creations (allOrNothing : ∀ path, (faults path).AllOrNothing)
    {tree : FileTree} (wellFormed : tree.WellFormed) (isHere : tree.at? here = some .directory)
    (names : Names tree here root place) (isRoot : tree.at? place = some .directory)
    (creations : Creations operations) :
    ∃ report after, applyOperations faults here root operations {} tree = (.ok report, after) ∧
      WrittenTo ((operations.map FileOperation.path).map (target root place)) tree after ∧
      (∀ path ∈ Entries.keys report.failures, path ∈ operations.map FileOperation.path) ∧
      ∀ operation ∈ operations, ∀ call, call ≠ .closeAgain ∧ call ≠ .removeTemporary →
        faults operation.path call ≠ none → operation.path ∈ Entries.keys report.failures := by
  have areBelow : ∀ path ∈ Entries.keys (byPath operations), (Path.ofText path).StaysBelow := by
    intro path member
    obtain ⟨operation, isOperation, rfl⟩ := List.mem_map.mp (mem_keys_byPath_iff.mp member)
    exact (creations operation isOperation).2.2
  have merged : ∀ group ∈ byPath operations, ∀ tree,
      mergedDraft tree here root {} group.1 group.2 = .ok (plannedDraft {} group.1 group.2) :=
    fun group member tree => mergedDraft_of_creations (creations_of_mem_byPath creations member)
      tree here root {} group.1
  have named : ∀ group ∈ byPath operations,
      Names tree here (root.join (Path.ofText group.1)) (placeOf root place group.1) :=
    fun group member => names.join (areBelow group.1 (List.mem_map_of_mem member))
  have written := (writtenTo_writeAll allOrNothing wellFormed isHere names isRoot areBelow {}
    []).mono (List.map_subset _ fun _ => mem_keys_byPath_iff.mp)
  rcases writeAll_cases allOrNothing wellFormed isHere (nodup_keys_byPath operations) named merged
    [] (by simp [Entries.keys]) with
    ⟨noted, isOk, keysNoted, -, history⟩ | ⟨-, stopped⟩
  · generalize isRun : writeAll faults here root {} (byPath operations) [] tree = outcome
      at isOk written
    obtain ⟨result, after⟩ := outcome
    obtain rfl : result = .ok noted := isOk
    have noKeys : Entries.keys ([] : Entries LooseText Failure) = [] := rfl
    rw [noKeys, List.nil_append] at keysNoted
    refine ⟨{ operations, failures := noted }, after, ?_, written, fun path member => ?_,
      fun operation member call noCleaning isFault => ?_⟩
    · rw [applyOperations]
      simp only [isRun]
    · rw [keysNoted] at member
      obtain ⟨write, isWrite, rfl⟩ := List.mem_map.mp (history.failed_subset member)
      obtain ⟨operation, isOperation, samePath, -⟩ :=
        exists_operation_of_mem_writes creations isWrite
      exact List.mem_map.mpr ⟨operation, isOperation, samePath⟩
    · obtain ⟨draft, isWrite⟩ := exists_write_of_creations creations member {}
      rw [keysNoted]
      exact mem_failedPaths_of_fault merged isWrite noCleaning isFault tree
  · obtain ⟨write, isWrite, notWhole⟩ := stopped.exists_notWhole
    obtain ⟨operation, isOperation, -, isContent⟩ :=
      exists_operation_of_mem_writes creations isWrite
    rw [← isContent, (creations operation isOperation).2.1] at notWhole
    contradiction

end Apply

/-! ## Cleaning up -/

open FileTree Discard

section CleaningUp

variable {here place : Location} {root : Path} {tree made written : FileTree}
  {operations : List FileOperation}

/-- A root that was missing is gone again.  What stays are the directories above it. -/
theorem discard_of_missing (wellFormed : tree.WellFormed) (isHere : tree.at? here = some .directory)
    (names : Names tree here root place)
    (isMade : makeDirectories here root tree = (.ok (), made)) (absent : tree.at? place = none)
    (isWritten : WrittenTo ((operations.map FileOperation.path).map (target root place))
      made written) :
    ∃ left, discard here root operations true written = (.ok (), left) ∧
      left.at? place.dropLast = some .directory ∧ WayMade place.dropLast tree left := by
  obtain ⟨madeFormed, wayMade, isReached⟩ := wellFormed.makeDirectories_cases isHere names isMade
  have isRoot := isReached _ rfl
  have below : place ≠ [] := by
    rintro rfl
    simp at absent
  obtain ⟨left, isDiscarded, atLeft⟩ := discard_of_made madeFormed
    (names.of_directories fun _ => wayMade.grown.keeps) (isShort_of_makeDirectories names.1 isMade)
    below isRoot isWritten
  refine ⟨left, isDiscarded, ?_, fun location => ?_⟩
  · have notBelow : ¬ place <+: place.dropLast := by
      intro isPrefix
      have notLonger := isPrefix.length_le
      have isLonger := List.length_pos_of_ne_nil below
      rw [List.length_dropLast] at notLonger
      omega
    rw [atLeft, if_neg notBelow]
    exact madeFormed.at?_dropLast isRoot
  · rw [atLeft]
    split
    next isBelow =>
      obtain ⟨more, rfl⟩ := isBelow
      cases more with
      | nil => exact .inl (by rw [List.append_nil, absent])
      | cons name more =>
          exact .inl (wellFormed.at?_below (by simp [absent]) (name :: more) (by simp)).symm
    next notBelow =>
      rcases wayMade location with same | ⟨isNew, isThere, more, rfl⟩
      · exact .inl same
      · have someMore : more ≠ [] := by
          rintro rfl
          exact notBelow (by simp)
        refine .inr ⟨isNew, isThere, ?_⟩
        rw [List.dropLast_append_of_ne_nil someMore]
        exact List.prefix_append _ _

/-- A root that was empty is empty again, unless the file system refuses to look up one
of the directories that led to the files. -/
theorem discard_of_present (wellFormed : tree.WellFormed) (isHere : tree.at? here = some .directory)
    (names : Names tree here root place)
    (isMade : makeDirectories here root tree = (.ok (), made))
    (isDirectory : tree.at? place = some .directory)
    (isEmpty : ∀ location, place <+: location → location ≠ place → tree.at? location = none)
    (creations : Creations operations)
    (isWritten : WrittenTo ((operations.map FileOperation.path).map (target root place))
      made written) :
    let directories := Discard.directories root (operations.map FileOperation.path)
    let outcome := discard here root operations false written
    (¬ Refuses here directories written →
      outcome.1 = .ok () ∧ ∀ location, outcome.2.at? location = tree.at? location) ∧
    (Refuses here directories written →
      outcome.1 = .error .nameTooLong ∧ Leftover root place directories tree outcome.2) := by
  obtain ⟨madeFormed, wayMade, isReached⟩ := wellFormed.makeDirectories_cases isHere names isMade
  have sameMade := wayMade.at?_eq wellFormed isDirectory
  obtain ⟨undone, left⟩ := discard_of_empty madeFormed
    (names.of_directories fun _ => wayMade.grown.keeps) (isShort_of_makeDirectories names.1 isMade)
    (isReached _ rfl)
    (fun location below apart => (sameMade location).trans (isEmpty location below apart))
    (List.forall_mem_map.mpr fun operation member => (creations operation member).2.2) isWritten
  refine ⟨fun notRefused => ?_, fun isRefused => ?_⟩
  · obtain ⟨isOk, same⟩ := undone notRefused
    exact ⟨isOk, fun location => (same location).trans (sameMade location)⟩
  · obtain ⟨isError, leftover⟩ := left isRefused
    exact ⟨isError, fun location => sameMade location ▸ leftover location⟩

/-- Cleaning up after creations in a root that was missing or empty leaves the tree as it
was before the root was made, whichever writes failed.  Only in a root that was empty
can it fail: exactly if the file system refuses to look up one of the directories that
led to the files.  Then nothing is left of the run but such directories. -/
theorem discard_undoes_creations {faults : LooseText → WriteFaults}
    (allOrNothing : ∀ path, (faults path).AllOrNothing) (wellFormed : tree.WellFormed)
    (isHere : tree.at? here = some .directory) (names : Names tree here root place)
    (isFree : tree.at? place = none ∧ tree.at? place.dropLast = some .directory ∨
      tree.at? place = some .directory ∧
        ∀ location, place <+: location → location ≠ place → tree.at? location = none)
    (isMade : makeDirectories here root tree = (.ok (), made)) (creations : Creations operations) :
    ∃ report written,
      applyOperations faults here root operations {} made = (.ok report, written) ∧
        let directories := Discard.directories root (operations.map FileOperation.path)
        let outcome := discard here root operations (tree.at? place).isNone written
        (tree.at? place = none ∨ ¬ Refuses here directories written →
          outcome.1 = .ok () ∧ ∀ location, outcome.2.at? location = tree.at? location) ∧
        (tree.at? place ≠ none → Refuses here directories written →
          outcome.1 = .error .nameTooLong ∧ Leftover root place directories tree outcome.2) := by
  obtain ⟨madeFormed, wayMade, isReached⟩ := wellFormed.makeDirectories_cases isHere names isMade
  obtain ⟨report, written, isApplied, isWritten, -⟩ :=
    Apply.applyOperations_of_creations allOrNothing madeFormed (wayMade.grown.keeps isHere)
      (names.of_directories fun _ => wayMade.grown.keeps) (isReached _ rfl) creations
  refine ⟨report, written, isApplied, ?_⟩
  rcases isFree with ⟨absent, isParent⟩ | ⟨isDirectory, isEmpty⟩
  · obtain ⟨left, isDiscarded, -, wayLeft⟩ :=
      discard_of_missing wellFormed isHere names isMade absent isWritten
    simp only [absent, Option.isNone_none, isDiscarded]
    exact ⟨fun _ => ⟨trivial, wayLeft.at?_eq wellFormed isParent⟩,
      fun isThere => absurd rfl isThere⟩
  · obtain ⟨undone, left⟩ := discard_of_present wellFormed isHere names isMade isDirectory isEmpty
      creations isWritten
    simp only [isDirectory, Option.isNone_some]
    exact ⟨fun notRefused => undone (notRefused.resolve_left (by simp)), fun _ => left⟩

end CleaningUp

/-! ## Runs in an empty directory -/

namespace EmptyRoot

def tree : FileTree := [(["p"], .directory)]

def root : Path := ⟨.relative, [("p" : LooseText)]⟩

def creationsOf (paths : List LooseText) : List FileOperation :=
  paths.map fun path => .create path ⟨[], true⟩

/-- Three files, of which the first stands where the second needs a directory. -/
def overlapping : List FileOperation := creationsOf ["a", "a/b", "c/d"]

/-- A name that the file system refuses. -/
def tooLong : LooseText := LooseText.ofText (List.replicate 256 'x')

/-- A file in a directory with such a name. -/
def longName : List FileOperation := creationsOf ["a/" ++ tooLong ++ "/b"]

/-- Only the last of the overlapping files has a fault. -/
def faults (path : LooseText) : WriteFaults :=
  if path = ("c/d" : LooseText) then .atOnce .busy else .none

theorem allOrNothing (path : LooseText) : (faults path).AllOrNothing := by
  rw [faults]
  split
  · exact WriteFaults.allOrNothing_atOnce (by decide)
  · exact WriteFaults.allOrNothing_none

theorem names : Names tree [] root ["p"] := by
  unfold Names
  decide

theorem isEmpty (location : Location) (below : ["p"] <+: location) (apart : location ≠ ["p"]) :
    tree.at? location = none := by
  obtain ⟨more, rfl⟩ := below
  cases more with
  | nil => simp at apart
  | cons name more => rfl

def run (operations : List FileOperation) : Except MergeError Report × FileTree :=
  applyOperations faults [] root operations {} tree

end EmptyRoot

/-- Two of three files are not written, and cleaning up leaves the directory empty. -/
theorem discard_undoes_creations_of_overlapping :
    ∃ report written, EmptyRoot.run EmptyRoot.overlapping = (.ok report, written) ∧
      Entries.keys report.failures = [("a/b" : LooseText), "c/d"] ∧
      let outcome := discard [] EmptyRoot.root EmptyRoot.overlapping false written
      outcome.1 = .ok () ∧ ∀ location, outcome.2.at? location = EmptyRoot.tree.at? location := by
  have creations : Creations EmptyRoot.overlapping := by
    unfold Creations
    decide
  obtain ⟨report, written, isRun, undone, -⟩ := discard_undoes_creations EmptyRoot.allOrNothing
    (wellFormed_of_entries (by decide)) rfl EmptyRoot.names (.inr ⟨rfl, EmptyRoot.isEmpty⟩) rfl
    creations
  have isOutcome : EmptyRoot.run EmptyRoot.overlapping = (.ok report, written) := isRun
  have failures : (EmptyRoot.run EmptyRoot.overlapping).1.toOption.map
      (fun report => Entries.keys report.failures) = some [("a/b" : LooseText), "c/d"] := by
    decide +kernel
  have notRefused : ¬ Refuses [] (Discard.directories EmptyRoot.root
      (EmptyRoot.overlapping.map FileOperation.path)) (EmptyRoot.run EmptyRoot.overlapping).2 := by
    rw [refuses_directories_iff]
    unfold Refuses
    decide +kernel
  rw [isOutcome] at failures notRefused
  exact ⟨report, written, isOutcome, Option.some.inj failures, undone (.inr notRefused)⟩

theorem EmptyRoot.directories_longName :
    Discard.directories root (longName.map FileOperation.path) =
      [root.join ⟨.relative, ["a", tooLong]⟩, root.join ⟨.relative, ["a"]⟩] := by
  have found : ((longName.map FileOperation.path).flatMap (directoriesOf root)).eraseDups =
      [root.join ⟨.relative, ["a"]⟩, root.join ⟨.relative, ["a", tooLong]⟩] := by
    decide +kernel
  rw [Discard.directories, found]
  simp [List.mergeSort, Path.join, root]

/-- Cleaning up an empty directory ends with an error and leaves a directory in it, if the
name of another one was too long. -/
theorem discard_leaves_directory :
    Creations EmptyRoot.longName ∧ (∃ report, (EmptyRoot.run EmptyRoot.longName).1 = .ok report) ∧
      let outcome := discard [] EmptyRoot.root EmptyRoot.longName false
        (EmptyRoot.run EmptyRoot.longName).2
      outcome.1 = .error .nameTooLong ∧ outcome.2.at? ["p", "a"] = some .directory ∧
        EmptyRoot.tree.at? ["p", "a"] = none := by
  have creations : Creations EmptyRoot.longName := by
    unfold Creations
    decide +kernel
  obtain ⟨report, written, isApplied, -⟩ := Apply.applyOperations_of_creations
    EmptyRoot.allOrNothing (wellFormed_of_entries (by decide)) rfl EmptyRoot.names rfl creations
  refine ⟨creations, ⟨report, congrArg Prod.fst isApplied⟩, ?_⟩
  simp only [discard, Bool.false_eq_true, if_false, EmptyRoot.directories_longName]
  decide +kernel

end ApiWorkshop
