import ApiWorkshop.Proofs.Merge.Effect
import ApiWorkshop.Proofs.Merge.Safety

/-!
# Skipped files

A plan skips a file whose markers are in disorder or that has no regions to
merge, and it skips each region that a file lacks.  A skip of a whole file is the
only operation on it, so the file is left alone.  A skip of one region stands
beside the patches of the others, and a patch that changes the file is made all
the same: such a file is rewritten although the plan skips a part of it.
-/

namespace ApiWorkshop

namespace Plan

/-- No patch among operations changes the file at a path. -/
def Unpatched (operations : List FileOperation) (path : LooseText) : Prop :=
  ∀ patch ∈ operations, patch.path = path → patch.change = .patch → patch.changed = false

instance (operations : List FileOperation) (path : LooseText) :
    Decidable (Unpatched operations path) :=
  inferInstanceAs (Decidable (∀ patch ∈ operations, _))

/-- A file is skipped as a whole and not touched by any other operation, or a
region is skipped that it does not have. -/
theorem skip_of_mem_regionOperations {path : LooseText} {existing : Text}
    {rendered : LooseText} {wanted : List Region} {skip : FileOperation}
    (member : skip ∈ regionOperations path existing rendered wanted)
    (isSkip : skip.change = .skip) :
    (skip.region = none ∧ regionOperations path existing rendered wanted = [skip]) ∨
      ∃ present name, findRegions path.label existing = .ok present ∧
        skip.region = some name ∧ name ∉ present.map Region.name := by
  cases onRegions_of_mem member with
  | withoutRegions noRegions => exact .inl ⟨rfl, by simp [regionOperations, noRegions]⟩
  | disorder someWanted isError =>
      exact .inl ⟨rfl, by simp [regionOperations, someWanted, isError]⟩
  | missing found _ isMissing =>
      refine .inr ⟨_, _, found, rfl, fun inPresent => ?_⟩
      obtain ⟨other, isOther, sameName⟩ := List.mem_map.mp inPresent
      simpa [sameName] using List.find?_eq_none.mp isMissing other isOther
  | patched => contradiction

/-- Only a rendered file that is there and can be read is skipped. -/
theorem skip_of_mem_operationsOn {snapshot : Snapshot} {path : LooseText}
    {candidate : Candidate} {skip : FileOperation}
    (member : skip ∈ operationsOn snapshot path candidate) (isSkip : skip.change = .skip) :
    ∃ text existing wanted, candidate = .rendered text ∧
      snapshot.text? path = some existing ∧
      operationsOn snapshot path candidate = regionOperations path existing text wanted := by
  have planned := plannedFor_operationsOn snapshot path candidate
  generalize operationsOn snapshot path candidate = operations at planned member ⊢
  cases planned with
  | nothing => contradiction
  | new =>
      obtain rfl := List.mem_singleton.mp member
      contradiction
  | document =>
      obtain rfl := List.mem_singleton.mp member
      contradiction
  | regions _ isThere _ => exact ⟨_, _, _, rfl, isThere, rfl⟩

/-- Nothing is to be written for the regions of a file exactly if no patch
changes it. -/
theorem plannedDraft_regionOperations_eq_none_iff {snapshot : Snapshot} {path : LooseText}
    {existing : Text} (isThere : snapshot.text? path = some existing) (rendered : LooseText)
    (wanted : List Region) :
    plannedDraft snapshot path (regionOperations path existing rendered wanted) = none ↔
      ∀ patch ∈ regionOperations path existing rendered wanted,
        patch.change = .patch → patch.changed = false := by
  rw [plannedDraft_regionOperations isThere]
  have somePatches := patches_ne_nil_iff (regionOperations path existing rendered wanted)
  cases noPatches :
      (Apply.patches (regionOperations path existing rendered wanted)).isEmpty with
  | true =>
      simp only [noPatches, Bool.true_eq_false, false_iff, not_exists, not_and] at somePatches
      simpa using somePatches
  | false =>
      simp only [noPatches, true_iff] at somePatches
      obtain ⟨patch, member, isPatch, changes⟩ := somePatches
      simp only [Bool.false_eq_true, if_false, reduceCtorEq, false_iff]
      intro unpatched
      simp [unpatched patch member isPatch] at changes

end Plan

namespace Apply

/-- A run leaves a file as it is when nothing is planned for its place, also if
the run ends early. -/
theorem fileAt?_writeAll {faults : LooseText → WriteFaults}
    (allOrNothing : ∀ path, (faults path).AllOrNothing) {here : Location} {root : Path}
    {snapshot : Snapshot} {place : LooseText → Location} {tree : FileTree}
    (wellFormed : tree.WellFormed) (isHere : tree.at? here = some .directory)
    {groups : Entries LooseText (List FileOperation)}
    (named : ∀ group ∈ groups, tree.Names here (root.join (Path.ofText group.1)) (place group.1))
    (merged : ∀ group ∈ groups, ∀ tree,
      mergedDraft tree here root snapshot group.1 group.2 =
        .ok (plannedDraft snapshot group.1 group.2))
    (failures : Entries LooseText Failure) {location : Location}
    (apart : ∀ group ∈ groups, plannedDraft snapshot group.1 group.2 ≠ none →
      place group.1 ≠ location) :
    (writeAll faults here root snapshot groups failures tree).2.fileAt? location =
      tree.fileAt? location := by
  induction groups generalizing failures tree with
  | nil => rfl
  | cons group groups ih =>
      obtain ⟨path, operations⟩ := group
      have restNamed := fun other member => named other (List.mem_cons_of_mem _ member)
      have restMerged := fun other member => merged other (List.mem_cons_of_mem _ member)
      have restApart := fun other member => apart other (List.mem_cons_of_mem _ member)
      have effect := writeFile_cases (allOrNothing path) wellFormed isHere
        (named (path, operations) List.mem_cons_self)
        (merged (path, operations) List.mem_cons_self tree)
      have kept : let outcome := writeFile faults here root snapshot path operations tree
          outcome.2.WellFormed ∧ (∀ other, tree.at? other = some .directory →
            outcome.2.at? other = some .directory) ∧
            outcome.2.fileAt? location = tree.fileAt? location := by
        obtain ⟨nextFormed, ⟨-, isSame⟩ | ⟨draft, isDraft, ⟨-, -, -, written⟩ | failure⟩⟩ := effect
        · rw [isSame]
          exact ⟨wellFormed, fun _ => id, rfl⟩
        · have elsewhere := apart (path, operations) List.mem_cons_self (by simp [isDraft])
          refine ⟨nextFormed, fun _ => written.keeps, ?_⟩
          rw [written.fileAt?_eq, if_neg (Ne.symm elsewhere)]
        · obtain ⟨-, -, -, grown⟩ := failure
          exact ⟨nextFormed, fun _ => grown.keeps, grown.fileAt?_eq location⟩
      simp only [writeAll]
      generalize writeFile faults here root snapshot path operations tree = outcome at kept
      obtain ⟨result, next⟩ := outcome
      obtain ⟨nextFormed, keeps, sameFile⟩ := kept
      have rest := fun failures => ih nextFormed (keeps here isHere)
        (fun other member => (restNamed other member).of_directories keeps) restMerged failures
        restApart
      cases result with
      | ok _ => exact (rest failures).trans sameFile
      | error error =>
          dsimp only
          split
          · exact (rest _).trans sameFile
          · exact sameFile

end Apply

namespace Plan

/-- Whatever becomes of a run, a path of the plan for which nothing is to be
written keeps its file. -/
theorem fileAt?_applyOperations {faults : LooseText → WriteFaults}
    (allOrNothing : ∀ path, (faults path).AllOrNothing) {here : Location} {root : Path}
    {rendered : Entries LooseText LooseText} {snapshot : Snapshot}
    {documents : Entries LooseText Draft} {place : LooseText → Location} {tree : FileTree}
    (wellFormed : tree.WellFormed) (isHere : tree.at? here = some .directory)
    (places : Places tree here root (Entries.keys rendered ++ Entries.keys documents) place)
    {operations : List FileOperation}
    (planned : plan rendered snapshot documents = .ok operations) {path : LooseText}
    (isPath : path ∈ Entries.keys rendered ++ Entries.keys documents)
    (noDraft : plannedDraft snapshot path (operations.filter (·.path = path)) = none) :
    (applyOperations faults here root operations snapshot tree).2.fileAt? (place path) =
      tree.fileAt? (place path) := by
  have isGrouped := byPath_plan places.nodup planned
  have isCandidate : ∀ group ∈ Apply.byPath operations, ∃ candidate,
      (group.1, candidate) ∈ candidates rendered documents ∧
        group.2 = operationsOn snapshot group.1 candidate := by
    intro group member
    obtain ⟨candidate, inCandidates, isPlanned, -⟩ := exists_candidate (isGrouped ▸ member)
    exact ⟨candidate, inCandidates, isPlanned⟩
  have named : ∀ group ∈ Apply.byPath operations,
      tree.Names here (root.join (Path.ofText group.1)) (place group.1) := by
    intro group member
    obtain ⟨candidate, inCandidates, -⟩ := isCandidate group member
    exact places.named group.1 (mem_paths_of_mem_candidates inCandidates)
  have apart : ∀ group ∈ Apply.byPath operations,
      plannedDraft snapshot group.1 group.2 ≠ none → place group.1 ≠ place path := by
    intro group member someDraft samePlace
    obtain ⟨candidate, inCandidates, isPlanned⟩ := isCandidate group member
    have samePath := places.apart group.1 (mem_paths_of_mem_candidates inCandidates) path isPath
      samePlace
    rw [isPlanned, ← filter_path_plan places.nodup planned inCandidates, samePath] at someDraft
    exact someDraft noDraft
  have kept := Apply.fileAt?_writeAll allOrNothing wellFormed isHere named
    (fun group member other => mergedDraft_of_mem (isGrouped ▸ member) here root other)
    snapshot.unreadable apart
  rw [← kept, applyOperations]
  split <;> simp_all

end Plan

/-- A plan that skips a file as a whole has no other operation on it; one that
skips a region may patch others.  The file keeps what it holds, whatever becomes of
the run, when no patch changes it.  A run that comes to its end rewrites the file
exactly if a patch changes it and the file does not fail. -/
theorem skipped_file_kept_iff_unpatched {rendered : Entries LooseText LooseText}
    (snapshot : Snapshot) {documents : Entries LooseText Draft}
    (distinct : (Entries.keys rendered ++ Entries.keys documents).Nodup)
    (wellMarked : ∀ file ∈ rendered, ∃ wanted,
      findRegions file.1.label file.2.shown = .ok wanted) :
    ∃ operations, plan rendered snapshot documents = .ok operations ∧
      ∀ skip ∈ operations, skip.change = .skip → ∃ existing,
        snapshot.text? skip.path = some existing ∧
        ((skip.region = none ∧ operations.filter (·.path = skip.path) = [skip]) ∨
          ∃ present name, findRegions skip.path.label existing = .ok present ∧
            skip.region = some name ∧ name ∉ present.map Region.name) ∧
        ∀ {faults : LooseText → WriteFaults} {here : Location} {root : Path} {tree : FileTree}
          {place : LooseText → Location},
          (∀ path, (faults path).AllOrNothing) → tree.WellFormed →
          tree.at? here = some .directory →
          Places tree here root (Entries.keys rendered ++ Entries.keys documents) place →
          let outcome := applyOperations faults here root operations snapshot tree
          (Plan.Unpatched operations skip.path →
            outcome.2.fileAt? (place skip.path) = tree.fileAt? (place skip.path)) ∧
          ∀ report, outcome.1 = .ok report →
            tree.fileAt? (place skip.path) = some (.text existing) →
            (outcome.2.fileAt? (place skip.path) = some (.text existing) ↔
              skip.path ∈ Entries.keys report.failures ∨
                Plan.Unpatched operations skip.path) := by
  obtain ⟨operations, planned⟩ := Plan.exists_plan snapshot documents wellMarked
  refine ⟨operations, planned, fun skip member isSkip => ?_⟩
  have isPath := Plan.path_mem_of_mem_plan planned skip member
  obtain ⟨candidate, isCandidate⟩ := Plan.exists_candidate_of_mem_paths isPath
  have isPlanned := Plan.filter_path_plan distinct planned isCandidate
  have onPath : skip ∈ Plan.operationsOn snapshot skip.path candidate := by
    rw [← isPlanned]
    exact List.mem_filter.mpr ⟨member, by simp⟩
  obtain ⟨text, existing, wanted, rfl, isThere, isRegions⟩ :=
    Plan.skip_of_mem_operationsOn onPath isSkip
  have noDraft : Plan.Unpatched operations skip.path ↔
      plannedDraft snapshot skip.path (operations.filter (·.path = skip.path)) = none := by
    rw [isPlanned, isRegions, Plan.plannedDraft_regionOperations_eq_none_iff isThere,
      ← isRegions, ← isPlanned]
    simp [Plan.Unpatched]
  refine ⟨existing, isThere, ?_, fun allOrNothing wellFormed isHere places => ⟨?_, ?_⟩⟩
  · rw [isPlanned, isRegions]
    exact Plan.skip_of_mem_regionOperations (isRegions ▸ onPath) isSkip
  · intro unpatched
    exact Plan.fileAt?_applyOperations allOrNothing wellFormed isHere places planned isPath
      (noDraft.mp unpatched)
  · intro report isOk isBefore
    rcases Plan.applyOperations_cases allOrNothing wellFormed isHere places planned with
      ⟨found, isFound, -, keysFailures, -, history⟩ | ⟨⟨error, isError⟩, -⟩
    · obtain rfl : report = found := Except.ok.inj (isOk.symm.trans isFound)
      rw [Plan.fileAt?_of_mem_paths places planned history isPath, noDraft, isBefore, keysFailures]
      cases isDraft : plannedDraft snapshot skip.path
          (operations.filter (·.path = skip.path)) with
      | none => simp
      | some draft =>
          have isWrite := Plan.mem_writes_of_plannedDraft distinct planned isPath isDraft
          dsimp only
          split
          next hasFailed => simp [hasFailed]
          next notFailed =>
            have whole := (history.whole_and_isShort_of_mem isWrite fun inFailed =>
              notFailed (List.mem_append_right _ inFailed)).1
            rw [isPlanned] at isDraft
            have differs := Plan.text_ne_of_plannedDraft isThere isDraft whole
            simpa [notFailed] using differs
    · rw [isError] at isOk
      contradiction

/-- A module that lacks one of two rendered regions and has the other one as it is
rendered keeps its text. -/
theorem skipped_file_kept_iff_unpatched_of_module :
    let path : LooseText := "a.py"
    let text : LooseText := framed "a.py" "x" "old\n" ++ framed "a.py" "y" "z\n"
    let existing : Text := framed "a.py" "x" "old\n"
    let snapshot : Snapshot := { contents := [(path, some existing)] }
    let tree : FileTree := [(["a.py"], .file (.text existing))]
    let root : Path := ⟨.relative, []⟩
    ∃ operations, plan [(path, text)] snapshot [] = .ok operations ∧
      FileOperation.skip path (some "y") (.regionMissing "y") ∈ operations ∧
      FileTree.fileAt? (applyOperations (fun _ => WriteFaults.none) [] root operations snapshot
        tree).2 ["a.py"] = some (.text existing) := by
  intro path text existing snapshot tree root
  have found : findRegions path.label text.shown = .ok [⟨"x", 20, 24⟩, ⟨"y", 62, 64⟩] := by
    dsimp +zetaDelta only
    rfl
  have wellMarked : ∀ file ∈ [(path, text)], ∃ wanted,
      findRegions file.1.label file.2.shown = .ok wanted := by
    intro file member
    obtain rfl := List.mem_singleton.mp member
    exact ⟨_, found⟩
  have distinct : (Entries.keys [(path, text)] ++
      Entries.keys ([] : Entries LooseText Draft)).Nodup := by decide
  obtain ⟨operations, planned, skipped⟩ :=
    skipped_file_kept_iff_unpatched snapshot distinct wellMarked
  have listed : plan [(path, text)] snapshot [] =
      .ok [.patch path "x" ("old\n".toList : Text) false,
        .skip path (some "y") (.regionMissing "y")] := by
    dsimp +zetaDelta only
    rfl
  obtain rfl := Except.ok.inj (planned.symm.trans listed)
  obtain ⟨_, -, -, kept⟩ := skipped _ (.tail _ (.head _)) rfl
  have places : Places tree [] root [path] fun other => [other.label] := by
    refine ⟨by simp, fun other member => ?_, fun first isFirst second isSecond _ => ?_⟩
    · obtain rfl := List.mem_singleton.mp member
      exact ⟨by decide, rfl⟩
    · rw [List.mem_singleton.mp isFirst, List.mem_singleton.mp isSecond]
  have unpatched : Plan.Unpatched [.patch path "x" ("old\n".toList : Text) false,
      .skip path (some "y") (.regionMissing "y")] path := by decide
  exact ⟨_, planned, .tail _ (.head _), (kept (fun _ => WriteFaults.allOrNothing_none)
    (FileTree.wellFormed_of_entries (by decide)) rfl places).1 unpatched⟩

/-- A module that lacks one of two rendered regions is rewritten when the other one
has changed. -/
theorem skipped_file_rewritten :
    let path : LooseText := "a.py"
    let text : LooseText := framed "a.py" "x" "new\n" ++ framed "a.py" "y" "z\n"
    let existing : Text := framed "a.py" "x" "old\n"
    let snapshot : Snapshot := { contents := [(path, some existing)] }
    let tree : FileTree := [(["a.py"], .file (.text existing))]
    let root : Path := ⟨.relative, []⟩
    let operations : List FileOperation :=
      [.patch path "x" ("new\n".toList : Text) true,
        .skip path (some "y") (.regionMissing "y")]
    let final : FileTree := [(["a.py"], .file (.text (framed "a.py" "x" "new\n")))]
    findRegions path.label text.shown = .ok [⟨"x", 20, 24⟩, ⟨"y", 62, 64⟩] ∧
      Snapshot.capture tree [] root [path] = .ok snapshot ∧
      plan [(path, text)] snapshot [] = .ok operations ∧
      applyOperations (fun _ => WriteFaults.none) [] root operations snapshot tree =
        (.ok { operations }, final) ∧
      FileTree.fileAt? final ["a.py"] ≠ FileTree.fileAt? tree ["a.py"] := by
  dsimp only
  exact ⟨rfl, rfl, rfl, rfl, by decide⟩

end ApiWorkshop
