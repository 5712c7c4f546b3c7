import ApiWorkshop.Proofs.Merge.Changes
import ApiWorkshop.Proofs.Merge.Run

/-!
# The effect of a run on the files

Plan, snapshot and report of a run agree with the tree that it leaves.  Each path
that did not fail holds what was planned for it, each path that failed holds what
it held, no other file changes, and the files that differ are those for which an
operation says so.
-/

namespace ApiWorkshop

namespace Plan

/-- A candidate that has bytes. -/
def Candidate.IsWhole : Candidate → Prop
  | .rendered text => text.isWhole = true
  | .document content => content.whole = true

/-- What is planned for a candidate that has bytes has bytes. -/
theorem whole_of_plannedDraft {snapshot : Snapshot} {path : LooseText} {candidate : Candidate}
    (whole : candidate.IsWhole) {draft : Draft}
    (isDraft : plannedDraft snapshot path (operationsOn snapshot path candidate) = some draft) :
    draft.whole = true := by
  cases draftFor_of_plannedDraft isDraft with
  | new => cases candidate <;> exact whole
  | document => exact whole
  | regions _ _ _ _ _ =>
      refine List.all_eq_true.mpr fun patch member => ?_
      obtain ⟨region, -, -, rfl⟩ := mem_bodyPatches member
      exact Region.isWhole_body whole region

theorem whole_of_mem_writes {rendered : Entries LooseText LooseText} {snapshot : Snapshot}
    {documents : Entries LooseText Draft} (wholeTexts : ∀ file ∈ rendered, file.2.isWhole = true)
    (wholeDocuments : ∀ document ∈ documents, document.2.whole = true)
    {write : LooseText × Draft} (member : write ∈ writes rendered snapshot documents) :
    write.2.whole = true := by
  obtain ⟨candidate, inCandidates, isDraft⟩ := mem_writes_iff.mp member
  refine whole_of_plannedDraft ?_ isDraft
  rcases List.mem_append.mp inCandidates with inRendered | inDocuments
  · obtain ⟨file, isFile, same⟩ := List.mem_map.mp inRendered
    obtain ⟨-, rfl⟩ := Prod.mk.inj same
    exact wholeTexts file isFile
  · obtain ⟨document, isDocument, same⟩ := List.mem_map.mp inDocuments
    obtain ⟨-, rfl⟩ := Prod.mk.inj same
    exact wholeDocuments document isDocument

/-- What stops a run comes from a rendered file or a document without bytes. -/
theorem exists_loose_of_stopped {rendered : Entries LooseText LooseText} {snapshot : Snapshot}
    {documents : Entries LooseText Draft} {root : Path} {place : LooseText → Location}
    {failed : List LooseText} {tree after : FileTree}
    (stopped : Apply.Stopped root place (writes rendered snapshot documents) failed tree after) :
    (∃ file ∈ rendered, file.2.isWhole = false) ∨
      ∃ document ∈ documents, document.2.whole = false := by
  obtain ⟨write, isWrite, notWhole⟩ := stopped.exists_notWhole
  by_contra allWhole
  push Not at allWhole
  have whole := whole_of_mem_writes (by simpa using allWhole.1) (by simpa using allWhole.2) isWrite
  rw [notWhole] at whole
  contradiction

end Plan

namespace Apply

/-- A path with a draft and a fault is among those that failed. -/
theorem mem_failedPaths_of_fault {faults : LooseText → WriteFaults} {here : Location}
    {root : Path} {snapshot : Snapshot} {groups : Entries LooseText (List FileOperation)}
    (merged : ∀ group ∈ groups, ∀ tree,
      mergedDraft tree here root snapshot group.1 group.2 =
        .ok (plannedDraft snapshot group.1 group.2))
    {path : LooseText} {draft : Draft} (isWrite : (path, draft) ∈ writes snapshot groups)
    {call : WriteCall} (noCleaning : call ≠ .closeAgain ∧ call ≠ .removeTemporary)
    (isFault : faults path call ≠ none) (tree : FileTree) :
    path ∈ failedPaths faults here root snapshot groups tree := by
  induction groups generalizing tree with
  | nil => simp [writes] at isWrite
  | cons group groups ih =>
      obtain ⟨other, operations⟩ := group
      have rest := ih fun group member =>
        merged group (List.mem_cons_of_mem (other, operations) member)
      have isMerged := merged (other, operations) (by simp) tree
      rw [failedPaths]
      cases isDraft : plannedDraft snapshot other operations with
      | none =>
          rw [writes_cons_of_none groups isDraft] at isWrite
          simp only [writeFile, isMerged, isDraft]
          exact rest isWrite tree
      | some planned =>
          rw [writes_cons_of_some groups isDraft] at isWrite
          simp only [writeFile, isMerged, isDraft]
          generalize isResult : tree.atomicWrite (faults other) here
            (root.join (Path.ofText other)) planned = result
          obtain ⟨outcome, next⟩ := result
          rcases List.mem_cons.mp isWrite with same | inRest
          · obtain ⟨rfl, rfl⟩ := Prod.mk.inj same
            cases outcome with
            | ok _ =>
                exact absurd (FileTree.faults_eq_none_of_atomicWrite isResult noCleaning) isFault
            | error error => simp
          · cases outcome with
            | ok _ => exact rest inRest next
            | error error => exact List.mem_cons_of_mem _ (rest inRest next)

end Apply

/-- How the files after a run differ from those before it, as its report has it. -/
structure Effect (place : LooseText → Location) (paths : List LooseText) (snapshot : Snapshot)
    (report : Report) (tree after : FileTree) : Prop where
  /-- A path that did not fail holds what was planned for it from the snapshot,
  or what it held if nothing was to be written. -/
  planned : ∀ path ∈ paths, path ∉ Entries.keys report.failures →
    after.fileAt? (place path) =
      match plannedDraft snapshot path (report.operations.filter (·.path = path)) with
      | some draft => some (.text draft.text)
      | none => tree.fileAt? (place path)
  /-- A path that failed holds what it held. -/
  failed : ∀ path ∈ Entries.keys report.failures,
    after.fileAt? (place path) = tree.fileAt? (place path)
  elsewhere : ∀ location, (∀ path ∈ paths, place path ≠ location) →
    after.fileAt? location = tree.fileAt? location
  /-- No file is deleted. -/
  kept : ∀ location, tree.fileAt? location ≠ none → after.fileAt? location ≠ none
  /-- The files that differ are those of the paths that did not fail and for which
  an operation says that the file is new or that it changes. -/
  differs : ∀ location, after.fileAt? location ≠ tree.fileAt? location ↔
    ∃ operation ∈ report.operations, place operation.path = location ∧
      operation.path ∉ Entries.keys report.failures ∧
      (operation.change = .create ∨ (operation.change ≠ .skip ∧ operation.changed = true))

namespace Plan

variable {tree after : FileTree} {here : Location} {root : Path}
  {rendered : Entries LooseText LooseText} {documents : Entries LooseText Draft}
  {place : LooseText → Location} {snapshot : Snapshot} {operations : List FileOperation}
  {report : Report} {failed : List LooseText}

theorem exists_candidate_of_mem_paths {path : LooseText}
    (member : path ∈ Entries.keys rendered ++ Entries.keys documents) :
    ∃ candidate, (path, candidate) ∈ candidates rendered documents := by
  rw [← keys_candidates] at member
  obtain ⟨⟨other, candidate⟩, inCandidates, rfl⟩ := List.mem_map.mp member
  exact ⟨candidate, inCandidates⟩

theorem path_mem_of_mem_plan (isPlan : plan rendered snapshot documents = .ok operations) :
    ∀ operation ∈ operations, operation.path ∈ Entries.keys rendered ++ Entries.keys documents := by
  obtain ⟨-, rfl⟩ := plan_eq_ok_iff.mp isPlan
  intro operation member
  obtain ⟨file, isFile, inFile⟩ := List.mem_flatMap.mp member
  rw [path_of_mem_files file isFile operation inFile, ← keys_files rendered snapshot documents]
  exact List.mem_map_of_mem isFile

/-- What a file of a plan holds after a run, from the report of the run. -/
theorem fileAt?_of_mem_paths
    (places : Places tree here root (Entries.keys rendered ++ Entries.keys documents) place)
    (isPlan : plan rendered snapshot documents = .ok operations)
    (history : Apply.History root place (writes rendered snapshot documents) failed tree after)
    {path : LooseText} (member : path ∈ Entries.keys rendered ++ Entries.keys documents) :
    after.fileAt? (place path) =
      match plannedDraft snapshot path (operations.filter (·.path = path)) with
      | some draft =>
          if path ∈ Entries.keys snapshot.unreadable ++ failed then
            tree.fileAt? (place path)
          else
            some (.text draft.text)
      | none => tree.fileAt? (place path) := by
  obtain ⟨candidate, inCandidates⟩ := exists_candidate_of_mem_paths member
  have isPlanned := filter_path_plan places.nodup isPlan inCandidates
  rw [fileAt?_of_mem_candidates places history inCandidates, isPlanned]
  cases isDraft : plannedDraft snapshot path (operationsOn snapshot path candidate) with
  | none => rfl
  | some draft =>
      have readable : path ∉ Entries.keys snapshot.unreadable := by
        intro inKeys
        have unreadable : snapshot.isUnreadable path = true :=
          Entries.isSome_get?_of_mem_keys inKeys
        rw [isUnreadable_of_plannedDraft isDraft] at unreadable
        contradiction
      simp [readable]

theorem isSome_plannedDraft_filter_iff
    (distinct : (Entries.keys rendered ++ Entries.keys documents).Nodup)
    (isPlan : plan rendered snapshot documents = .ok operations) {path : LooseText}
    (member : path ∈ Entries.keys rendered ++ Entries.keys documents) :
    (plannedDraft snapshot path (operations.filter (·.path = path))).isSome = true ↔
      ∃ operation ∈ operations, operation.path = path ∧
        (operation.change = .create ∨ (operation.change ≠ .skip ∧ operation.changed = true)) := by
  obtain ⟨candidate, inCandidates⟩ := exists_candidate_of_mem_paths member
  have isPlanned := filter_path_plan distinct isPlan inCandidates
  rw [isPlanned, isSome_plannedDraft_iff, ← isPlanned]
  simp [and_assoc]

theorem mem_writes_of_plannedDraft
    (distinct : (Entries.keys rendered ++ Entries.keys documents).Nodup)
    (isPlan : plan rendered snapshot documents = .ok operations) {path : LooseText}
    (member : path ∈ Entries.keys rendered ++ Entries.keys documents) {draft : Draft}
    (isDraft : plannedDraft snapshot path (operations.filter (·.path = path)) = some draft) :
    (path, draft) ∈ writes rendered snapshot documents := by
  obtain ⟨candidate, inCandidates⟩ := exists_candidate_of_mem_paths member
  rw [filter_path_plan distinct isPlan inCandidates] at isDraft
  exact mem_writes_iff.mpr ⟨candidate, inCandidates, isDraft⟩

/-- A file that is to be written fails when its write has a fault. -/
theorem mem_failedPaths_of_fault {faults : LooseText → WriteFaults}
    (distinct : (Entries.keys rendered ++ Entries.keys documents).Nodup)
    (isPlan : plan rendered snapshot documents = .ok operations) {path : LooseText}
    (member : path ∈ Entries.keys rendered ++ Entries.keys documents) {draft : Draft}
    (isDraft : plannedDraft snapshot path (operations.filter (·.path = path)) = some draft)
    {call : WriteCall} (noCleaning : call ≠ .closeAgain ∧ call ≠ .removeTemporary)
    (isFault : faults path call ≠ none) (tree : FileTree) :
    path ∈ Apply.failedPaths faults here root snapshot (Apply.byPath operations) tree := by
  have isGrouped := byPath_plan distinct isPlan
  have isWrite := mem_writes_of_plannedDraft distinct isPlan member isDraft
  rw [writes, ← writes_filter, ← isGrouped] at isWrite
  refine Apply.mem_failedPaths_of_fault (fun group inGroups tree => ?_) isWrite noCleaning isFault
    tree
  exact mergedDraft_of_mem (isGrouped ▸ inGroups) here root tree

/-- What is planned for a path differs from what the file holds. -/
theorem fileAt?_ne_of_plannedDraft
    (places : Places tree here root (Entries.keys rendered ++ Entries.keys documents) place)
    (isSnapshot : snapshot = Snapshot.ofNodes root (Entries.keys rendered ++ Entries.keys documents)
      fun path => tree.at? (place path))
    (isPlan : plan rendered snapshot documents = .ok operations) {path : LooseText}
    (member : path ∈ Entries.keys rendered ++ Entries.keys documents) {draft : Draft}
    (isDraft : plannedDraft snapshot path (operations.filter (·.path = path)) = some draft)
    (whole : draft.whole = true) : tree.fileAt? (place path) ≠ some (.text draft.text) := by
  obtain ⟨candidate, inCandidates⟩ := exists_candidate_of_mem_paths member
  rw [filter_path_plan places.nodup isPlan inCandidates] at isDraft
  intro isHeld
  have isThere : snapshot.text? path = some draft.text := by
    rw [isSnapshot]
    exact (Snapshot.text?_ofNodes_eq_some_iff member).mpr isHeld
  exact text_ne_of_plannedDraft isThere isDraft whole rfl

theorem failures_subset_paths
    (isSnapshot : snapshot = Snapshot.ofNodes root (Entries.keys rendered ++ Entries.keys documents)
      fun path => tree.at? (place path))
    (history : Apply.History root place (writes rendered snapshot documents) failed tree after) :
    Entries.keys snapshot.unreadable ++ failed ⊆
      Entries.keys rendered ++ Entries.keys documents := by
  intro path member
  rcases List.mem_append.mp member with inUnreadable | inFailed
  · rw [isSnapshot, Snapshot.ofNodes, Entries.keys_filterMap] at inUnreadable
    exact (List.mem_filter.mp inUnreadable).1
  · exact (keys_writes_sublist rendered snapshot documents).subset (history.failed_subset inFailed)

/-- Files that no path of the plan names are as they were. -/
theorem fileAt?_elsewhere
    (places : Places tree here root (Entries.keys rendered ++ Entries.keys documents) place)
    (history : Apply.History root place (writes rendered snapshot documents) failed tree after)
    {location : Location}
    (apart : ∀ path ∈ Entries.keys rendered ++ Entries.keys documents, place path ≠ location) :
    after.fileAt? location = tree.fileAt? location := by
  have sublist := keys_writes_sublist rendered snapshot documents
  refine history.fileAt?_of_apart (sublist.nodup places.nodup) fun write member _ => ?_
  exact apart write.1 (sublist.subset (List.mem_map_of_mem member))

/-- A run removes no file. -/
theorem fileAt?_ne_none
    (places : Places tree here root (Entries.keys rendered ++ Entries.keys documents) place)
    (isPlan : plan rendered snapshot documents = .ok operations)
    (history : Apply.History root place (writes rendered snapshot documents) failed tree after)
    {location : Location} (isFile : tree.fileAt? location ≠ none) :
    after.fileAt? location ≠ none := by
  by_cases isPlace : ∃ path ∈ Entries.keys rendered ++ Entries.keys documents,
      place path = location
  · obtain ⟨path, member, rfl⟩ := isPlace
    rw [fileAt?_of_mem_paths places isPlan history member]
    split
    · split
      · exact isFile
      · simp
    · exact isFile
  · rw [fileAt?_elsewhere places history fun path member same => isPlace ⟨path, member, same⟩]
    exact isFile

/-- The files that differ after a run are those of the operations that change
something and do not fail. -/
theorem fileAt?_ne_iff
    (places : Places tree here root (Entries.keys rendered ++ Entries.keys documents) place)
    (isSnapshot : snapshot = Snapshot.ofNodes root (Entries.keys rendered ++ Entries.keys documents)
      fun path => tree.at? (place path))
    (isPlan : plan rendered snapshot documents = .ok operations)
    (history : Apply.History root place (writes rendered snapshot documents) failed tree after)
    (location : Location) :
    after.fileAt? location ≠ tree.fileAt? location ↔
      ∃ operation ∈ operations, place operation.path = location ∧
        operation.path ∉ Entries.keys snapshot.unreadable ++ failed ∧
        (operation.change = .create ∨ (operation.change ≠ .skip ∧ operation.changed = true)) := by
  constructor
  · intro differs
    have isPlace : ∃ path ∈ Entries.keys rendered ++ Entries.keys documents,
        place path = location := by
      by_contra noPlace
      exact differs (fileAt?_elsewhere places history
        fun path member same => noPlace ⟨path, member, same⟩)
    obtain ⟨path, member, rfl⟩ := isPlace
    have atPath := fileAt?_of_mem_paths places isPlan history member
    rw [atPath] at differs
    cases isDraft : plannedDraft snapshot path (operations.filter (·.path = path)) with
    | none => simp [isDraft] at differs
    | some draft =>
        have isSome : (plannedDraft snapshot path
            (operations.filter (·.path = path))).isSome = true := by simp [isDraft]
        obtain ⟨operation, inOperations, rfl, changes⟩ :=
          (isSome_plannedDraft_filter_iff places.nodup isPlan member).mp isSome
        refine ⟨operation, inOperations, rfl, fun hasFailed => ?_, changes⟩
        rw [isDraft] at differs
        exact differs (if_pos hasFailed)
  · rintro ⟨operation, inOperations, rfl, notFailed, changes⟩
    have member := path_mem_of_mem_plan isPlan operation inOperations
    obtain ⟨draft, isDraft⟩ := Option.isSome_iff_exists.mp
      ((isSome_plannedDraft_filter_iff places.nodup isPlan member).mpr
        ⟨operation, inOperations, rfl, changes⟩)
    have isWrite := mem_writes_of_plannedDraft places.nodup isPlan member isDraft
    have whole := (history.whole_and_isShort_of_mem isWrite fun inFailed =>
      notFailed (List.mem_append_right _ inFailed)).1
    rw [fileAt?_of_mem_paths places isPlan history member, isDraft]
    dsimp only
    rw [if_neg notFailed]
    exact (fileAt?_ne_of_plannedDraft places isSnapshot isPlan member isDraft whole).symm

/-- A run has the effect that its report tells. -/
theorem effect_of_history
    (places : Places tree here root (Entries.keys rendered ++ Entries.keys documents) place)
    (isSnapshot : snapshot = Snapshot.ofNodes root (Entries.keys rendered ++ Entries.keys documents)
      fun path => tree.at? (place path))
    (isPlan : plan rendered snapshot documents = .ok report.operations)
    (history : Apply.History root place (writes rendered snapshot documents) failed tree after)
    (keysFailures : Entries.keys report.failures = Entries.keys snapshot.unreadable ++ failed) :
    Effect place (Entries.keys rendered ++ Entries.keys documents) snapshot report tree after := by
  have atPath : ∀ path ∈ Entries.keys rendered ++ Entries.keys documents, _ :=
    fun _ member => fileAt?_of_mem_paths places isPlan history member
  constructor
  · intro path member notFailed
    rw [keysFailures] at notFailed
    rw [atPath path member]
    cases plannedDraft snapshot path (report.operations.filter (·.path = path)) with
    | none => rfl
    | some draft => simp only [if_neg notFailed]
  · intro path hasFailed
    rw [keysFailures] at hasFailed
    rw [atPath path (failures_subset_paths isSnapshot history hasFailed)]
    cases plannedDraft snapshot path (report.operations.filter (·.path = path)) with
    | none => rfl
    | some draft => simp only [if_pos hasFailed]
  · exact fun location apart => fileAt?_elsewhere places history apart
  · exact fun location isFile => fileAt?_ne_none places isPlan history isFile
  · intro location
    rw [keysFailures]
    exact fileAt?_ne_iff places isSnapshot isPlan history location

end Plan

end ApiWorkshop
