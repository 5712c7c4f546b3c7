import ApiWorkshop.Proofs.Merge.History

/-!
# Runs of a plan

The operations of a plan are applied file by file, and each file that can be
read has one draft to write or none.  A run of the plan, or of a first part of
it, has a history of these drafts, so what every file of the plan holds after
the run is known.
-/

namespace ApiWorkshop

namespace Plan

/-- The drafts to write for what is planned. -/
def writes (rendered : Entries LooseText LooseText) (snapshot : Snapshot)
    (documents : Entries LooseText Draft) : Entries LooseText Draft :=
  Apply.writes snapshot (files rendered snapshot documents)

theorem mem_writes_iff {rendered : Entries LooseText LooseText} {snapshot : Snapshot}
    {documents : Entries LooseText Draft} {path : LooseText} {draft : Draft} :
    (path, draft) ∈ writes rendered snapshot documents ↔
      ∃ candidate, (path, candidate) ∈ candidates rendered documents ∧
        plannedDraft snapshot path (operationsOn snapshot path candidate) = some draft := by
  simp only [writes, Apply.writes, files, List.filterMap_map, List.mem_filterMap]
  constructor
  · rintro ⟨⟨other, candidate⟩, member, isDraft⟩
    obtain ⟨found, isFound, same⟩ := Option.map_eq_some_iff.mp isDraft
    obtain ⟨rfl, rfl⟩ := Prod.mk.inj same
    exact ⟨candidate, member, isFound⟩
  · rintro ⟨candidate, member, isDraft⟩
    exact ⟨(path, candidate), member, by simp [isDraft]⟩

theorem keys_writes_sublist (rendered : Entries LooseText LooseText) (snapshot : Snapshot)
    (documents : Entries LooseText Draft) :
    (Entries.keys (writes rendered snapshot documents)).Sublist
      (Entries.keys rendered ++ Entries.keys documents) := by
  rw [← keys_files rendered snapshot documents, writes, Apply.writes]
  generalize files rendered snapshot documents = planned
  induction planned with
  | nil => exact .slnil
  | cons file planned ih =>
      cases isDraft : plannedDraft snapshot file.1 file.2 with
      | none => simpa [Entries.keys, isDraft] using ih.cons file.1
      | some draft => simpa [Entries.keys, isDraft] using ih.cons_cons file.1

theorem writes_filter (snapshot : Snapshot) (planned : Entries LooseText (List FileOperation)) :
    Apply.writes snapshot (planned.filter (!·.2.isEmpty)) = Apply.writes snapshot planned := by
  induction planned with
  | nil => rfl
  | cons file planned ih =>
      obtain ⟨path, operations⟩ := file
      cases operations with
      | nil =>
          have noDraft : plannedDraft snapshot path [] = none := rfl
          rw [Apply.writes_cons_of_none planned noDraft, ← ih]
          rfl
      | cons operation operations =>
          have kept : ((path, operation :: operations) :: planned).filter (!·.2.isEmpty) =
              (path, operation :: operations) :: planned.filter (!·.2.isEmpty) := rfl
          rw [kept]
          simp only [Apply.writes] at ih ⊢
          rw [List.filterMap_cons, List.filterMap_cons, ih]

/-- Grouped operations of a plan are what is planned for a candidate that can be
read. -/
theorem exists_candidate {rendered : Entries LooseText LooseText} {snapshot : Snapshot}
    {documents : Entries LooseText Draft} {group : LooseText × List FileOperation}
    (member : group ∈ (files rendered snapshot documents).filter (!·.2.isEmpty)) :
    ∃ candidate, (group.1, candidate) ∈ candidates rendered documents ∧
      group.2 = operationsOn snapshot group.1 candidate ∧
      snapshot.isUnreadable group.1 = false := by
  obtain ⟨isFile, someOperations⟩ := List.mem_filter.mp member
  obtain ⟨⟨path, candidate⟩, inCandidates, rfl⟩ := List.mem_map.mp isFile
  refine ⟨candidate, inCandidates, rfl, ?_⟩
  cases unreadable : snapshot.isUnreadable path with
  | false => rfl
  | true => simp [operationsOn_unreadable unreadable] at someOperations

theorem mergedDraft_of_mem {rendered : Entries LooseText LooseText} {snapshot : Snapshot}
    {documents : Entries LooseText Draft} {group : LooseText × List FileOperation}
    (member : group ∈ (files rendered snapshot documents).filter (!·.2.isEmpty))
    (here : Location) (root : Path) (tree : FileTree) :
    Apply.mergedDraft tree here root snapshot group.1 group.2 =
      .ok (plannedDraft snapshot group.1 group.2) := by
  obtain ⟨candidate, -, isPlanned, -⟩ := exists_candidate member
  rw [isPlanned]
  exact mergedDraft_operationsOn tree here root snapshot group.1 candidate

theorem mem_paths_of_mem_candidates {rendered : Entries LooseText LooseText}
    {documents : Entries LooseText Draft} {entry : LooseText × Candidate}
    (member : entry ∈ candidates rendered documents) :
    entry.1 ∈ Entries.keys rendered ++ Entries.keys documents := by
  rw [← keys_candidates]
  exact List.mem_map_of_mem member

/-- Groups of operations that make up a first part of a plan are applied by
writing their drafts. -/
theorem writeAll_plan_cases {faults : LooseText → WriteFaults}
    (allOrNothing : ∀ path, (faults path).AllOrNothing) {here : Location} {root : Path}
    {rendered : Entries LooseText LooseText} {snapshot : Snapshot}
    {documents : Entries LooseText Draft} {place : LooseText → Location} {tree : FileTree}
    (wellFormed : tree.WellFormed) (isHere : tree.at? here = some .directory)
    (places : Places tree here root (Entries.keys rendered ++ Entries.keys documents) place)
    {operations : List FileOperation}
    (planned : plan rendered snapshot documents = .ok operations) (count : Nat) :
    let groups := (Apply.byPath operations).take count
    let outcome := Apply.writeAll faults here root snapshot groups snapshot.unreadable tree
    let failed := Apply.failedPaths faults here root snapshot groups tree
    (∃ noted, outcome.1 = .ok noted ∧
        Entries.keys noted = Entries.keys snapshot.unreadable ++ failed ∧
        outcome.2.WellFormed ∧
        Apply.History root place (Apply.writes snapshot groups) failed tree outcome.2) ∨
      (∃ error, outcome.1 = .error error) ∧
        Apply.Stopped root place (Apply.writes snapshot groups) failed tree outcome.2 := by
  intro groups
  have isGrouped := byPath_plan places.nodup planned
  have isGroup : ∀ group ∈ groups,
      group ∈ (files rendered snapshot documents).filter (!·.2.isEmpty) := by
    intro group member
    rw [← isGrouped]
    exact List.mem_of_mem_take member
  have keysSublist : (Entries.keys groups).Sublist
      (Entries.keys rendered ++ Entries.keys documents) := by
    rw [← keys_files rendered snapshot documents]
    refine List.Sublist.map Prod.fst ?_
    refine (List.take_sublist count _).trans ?_
    rw [isGrouped]
    exact List.filter_sublist
  refine Apply.writeAll_cases allOrNothing wellFormed isHere (keysSublist.nodup places.nodup)
    ?_ ?_ _ ?_
  · intro group member
    exact places.named group.1 (keysSublist.subset (List.mem_map_of_mem member))
  · intro group member other
    exact mergedDraft_of_mem (isGroup group member) here root other
  · intro group member inKeys
    obtain ⟨-, -, -, readable⟩ := exists_candidate (isGroup group member)
    rw [Snapshot.isUnreadable, Entries.hasKey] at readable
    have found := Entries.isSome_get?_of_mem_keys inKeys
    rw [found] at readable
    contradiction

/-- A run of a whole plan has a history of the drafts to write, and its report
lists the files that could not be read or written, unless a draft stops it. -/
theorem applyOperations_cases {faults : LooseText → WriteFaults}
    (allOrNothing : ∀ path, (faults path).AllOrNothing) {here : Location} {root : Path}
    {rendered : Entries LooseText LooseText} {snapshot : Snapshot}
    {documents : Entries LooseText Draft} {place : LooseText → Location} {tree : FileTree}
    (wellFormed : tree.WellFormed) (isHere : tree.at? here = some .directory)
    (places : Places tree here root (Entries.keys rendered ++ Entries.keys documents) place)
    {operations : List FileOperation}
    (planned : plan rendered snapshot documents = .ok operations) :
    let outcome := applyOperations faults here root operations snapshot tree
    let failed := Apply.failedPaths faults here root snapshot (Apply.byPath operations) tree
    (∃ report, outcome.1 = .ok report ∧ report.operations = operations ∧
        Entries.keys report.failures = Entries.keys snapshot.unreadable ++ failed ∧
        outcome.2.WellFormed ∧
        Apply.History root place (writes rendered snapshot documents) failed tree outcome.2) ∨
      (∃ error, outcome.1 = .error error) ∧
        Apply.Stopped root place (writes rendered snapshot documents) failed tree outcome.2 := by
  intro outcome failed
  have isGrouped := byPath_plan places.nodup planned
  have sameWrites : Apply.writes snapshot (Apply.byPath operations) =
      writes rendered snapshot documents := by
    rw [isGrouped, writes_filter, writes]
  have run := writeAll_plan_cases allOrNothing wellFormed isHere places planned
    (Apply.byPath operations).length
  dsimp only at run
  rw [List.take_length, sameWrites] at run
  have sameTree : outcome.2 = (Apply.writeAll faults here root snapshot
      (Apply.byPath operations) snapshot.unreadable tree).2 := by
    simp only [outcome, applyOperations]
    split <;> simp_all
  rcases run with ⟨noted, isOk, keysNoted, lastFormed, history⟩ | ⟨⟨error, isError⟩, stopped⟩
  · refine .inl ⟨{ operations, failures := noted }, ?_, rfl, keysNoted, ?_⟩
    · simp only [outcome, applyOperations]
      split <;> simp_all
    · rw [sameTree]
      exact ⟨lastFormed, history⟩
  · refine .inr ⟨⟨error, ?_⟩, sameTree ▸ stopped⟩
    simp only [outcome, applyOperations]
    split <;> simp_all

/-- A run of a plan that ends well has a history, and its report tells what failed. -/
theorem history_of_applyOperations {faults : LooseText → WriteFaults}
    (allOrNothing : ∀ path, (faults path).AllOrNothing) {here : Location} {root : Path}
    {rendered : Entries LooseText LooseText} {snapshot : Snapshot}
    {documents : Entries LooseText Draft} {place : LooseText → Location} {tree : FileTree}
    (wellFormed : tree.WellFormed) (isHere : tree.at? here = some .directory)
    (places : Places tree here root (Entries.keys rendered ++ Entries.keys documents) place)
    {operations : List FileOperation}
    (planned : plan rendered snapshot documents = .ok operations) {report : Report}
    {after : FileTree}
    (isApplied : applyOperations faults here root operations snapshot tree = (.ok report, after)) :
    let failed := Apply.failedPaths faults here root snapshot (Apply.byPath operations) tree
    report.operations = operations ∧
      Entries.keys report.failures = Entries.keys snapshot.unreadable ++ failed ∧
      Apply.History root place (writes rendered snapshot documents) failed tree after := by
  have run := applyOperations_cases allOrNothing wellFormed isHere places planned
  simp only [isApplied] at run
  rcases run with ⟨told, isTold, sameOperations, keysFailures, -, history⟩ | ⟨⟨error, isError⟩, -⟩
  · obtain rfl := Except.ok.inj isTold
    exact ⟨sameOperations, keysFailures, history⟩
  · simp at isError

/-- A draft without bytes stopped a run of a plan that ends with an error. -/
theorem stopped_of_applyOperations {faults : LooseText → WriteFaults}
    (allOrNothing : ∀ path, (faults path).AllOrNothing) {here : Location} {root : Path}
    {rendered : Entries LooseText LooseText} {snapshot : Snapshot}
    {documents : Entries LooseText Draft} {place : LooseText → Location} {tree : FileTree}
    (wellFormed : tree.WellFormed) (isHere : tree.at? here = some .directory)
    (places : Places tree here root (Entries.keys rendered ++ Entries.keys documents) place)
    {operations : List FileOperation}
    (planned : plan rendered snapshot documents = .ok operations) {error : MergeError}
    {after : FileTree}
    (isApplied : applyOperations faults here root operations snapshot tree = (.error error, after)) :
    Apply.Stopped root place (writes rendered snapshot documents)
      (Apply.failedPaths faults here root snapshot (Apply.byPath operations) tree) tree after := by
  have run := applyOperations_cases allOrNothing wellFormed isHere places planned
  simp only [isApplied] at run
  rcases run with ⟨report, isReport, -⟩ | ⟨-, stopped⟩
  · simp at isReport
  · exact stopped

/-- What a file of a plan holds after a run. -/
theorem fileAt?_of_mem_candidates {tree after : FileTree} {here : Location} {root : Path}
    {rendered : Entries LooseText LooseText} {snapshot : Snapshot}
    {documents : Entries LooseText Draft} {place : LooseText → Location}
    (places : Places tree here root (Entries.keys rendered ++ Entries.keys documents) place)
    {failed : List LooseText}
    (history : Apply.History root place (writes rendered snapshot documents) failed tree after)
    {path : LooseText} {candidate : Candidate}
    (member : (path, candidate) ∈ candidates rendered documents) :
    after.fileAt? (place path) =
      match plannedDraft snapshot path (operationsOn snapshot path candidate) with
      | some draft =>
          if path ∈ failed then tree.fileAt? (place path) else some (.text draft.text)
      | none => tree.fileAt? (place path) := by
  have sublist := keys_writes_sublist rendered snapshot documents
  have distinct := sublist.nodup places.nodup
  have isPath := mem_paths_of_mem_candidates member
  have samePath : ∀ write ∈ writes rendered snapshot documents,
      place write.1 = place path → write.1 = path :=
    fun write isWrite => places.apart write.1 (sublist.subset (List.mem_map_of_mem isWrite)) path
      isPath
  cases isDraft : plannedDraft snapshot path (operationsOn snapshot path candidate) with
  | none =>
      refine history.fileAt?_of_apart distinct fun write isWrite _ samePlace => ?_
      obtain ⟨other, otherMember, otherDraft⟩ := mem_writes_iff.mp isWrite
      rw [samePath write isWrite samePlace] at otherMember otherDraft
      have sameCandidate := Entries.value_eq_of_mem
        (by rw [keys_candidates]; exact places.nodup) otherMember member
      rw [sameCandidate, isDraft] at otherDraft
      contradiction
  | some draft =>
      dsimp only
      have isWrite : (path, draft) ∈ writes rendered snapshot documents :=
        mem_writes_iff.mpr ⟨candidate, member, isDraft⟩
      split
      next hasFailed =>
        refine history.fileAt?_of_apart distinct fun write isWrite notFailed samePlace => ?_
        exact notFailed (samePath write isWrite samePlace ▸ hasFailed)
      next notFailed =>
        exact history.fileAt?_of_mem distinct
          (fun first inFirst second inSecond =>
            places.apart first (sublist.subset inFirst) second (sublist.subset inSecond))
          isWrite notFailed

end Plan

end ApiWorkshop
