import ApiWorkshop.Proofs.Merge.Changes
import ApiWorkshop.Proofs.Merge.Resumption
import ApiWorkshop.Proofs.Merge.Safety

/-!
# Interrupted runs converge

A run that is stopped after any of its writes and then made again in full ends
with the tree of a run that was not stopped, and a further run finds nothing to
write.
-/

namespace ApiWorkshop

namespace Apply

theorem writes_append (snapshot : Snapshot)
    (first second : Entries LooseText (List FileOperation)) :
    writes snapshot (first ++ second) = writes snapshot first ++ writes snapshot second :=
  List.filterMap_append

end Apply

namespace Plan

variable {tree left final : FileTree} {here : Location} {root : Path}
  {rendered : Entries LooseText LooseText} {documents : Entries LooseText Draft}
  {snapshot : Snapshot} {operations : List FileOperation}

theorem writes_byPath (distinct : (Entries.keys rendered ++ Entries.keys documents).Nodup)
    (planned : plan rendered snapshot documents = .ok operations) :
    Apply.writes snapshot (Apply.byPath operations) = writes rendered snapshot documents := by
  rw [byPath_plan distinct planned, writes_filter, writes]

/-- A plan is applied by making its writes, if they go well. -/
theorem applyOperations_of_writeDrafts?
    (distinct : (Entries.keys rendered ++ Entries.keys documents).Nodup)
    (planned : plan rendered snapshot documents = .ok operations)
    (isFinal : Apply.writeDrafts? here root (writes rendered snapshot documents) tree = some final) :
    applyOperations (fun _ => WriteFaults.none) here root operations snapshot tree =
      (.ok { operations, failures := snapshot.unreadable }, final) := by
  rw [← writes_byPath distinct planned] at isFinal
  have isGrouped := byPath_plan distinct planned
  rw [applyOperations, Apply.writeAll_of_writeDrafts? (fun group member other => ?_) isFinal]
  exact mergedDraft_of_mem (isGrouped ▸ member) here root other

/-- A plan without writes says so. -/
theorem unchanged_of_writes_eq_nil
    (planned : plan rendered snapshot documents = .ok operations)
    (noWrites : writes rendered snapshot documents = []) :
    ∀ operation ∈ operations,
      operation.change ≠ .create ∧ (operation.change ≠ .skip → operation.changed = false) := by
  obtain ⟨-, rfl⟩ := plan_eq_ok_iff.mp planned
  intro operation member
  obtain ⟨file, isFile, inFile⟩ := List.mem_flatMap.mp member
  obtain ⟨⟨path, candidate⟩, inCandidates, rfl⟩ := List.mem_map.mp isFile
  have noDraft : (plannedDraft snapshot path (operationsOn snapshot path candidate)).isSome ≠
      true := by
    intro isSome
    obtain ⟨draft, isDraft⟩ := Option.isSome_iff_exists.mp isSome
    have isWrite := mem_writes_iff.mpr ⟨candidate, inCandidates, isDraft⟩
    simp [noWrites] at isWrite
  rw [Ne, isSome_plannedDraft_iff] at noDraft
  refine ⟨fun isCreate => noDraft ⟨operation, inFile, .inl isCreate⟩, fun noSkip => ?_⟩
  cases changed : operation.changed with
  | false => rfl
  | true => exact absurd ⟨operation, inFile, .inr ⟨noSkip, changed⟩⟩ noDraft

end Plan

namespace Resumable

variable {tree final : FileTree} {here : Location} {root : Path}
  {rendered : Entries LooseText LooseText} {documents : Entries LooseText Draft}
  {place : LooseText → Location} {snapshot : Snapshot}

theorem exists_plan (resumable : Resumable tree here root rendered documents place)
    (snapshot : Snapshot) : ∃ operations, plan rendered snapshot documents = .ok operations := by
  refine Plan.exists_plan snapshot documents fun file member => ?_
  obtain ⟨wanted, isWanted, -⟩ := (resumable.plain file member).bodies
  exact ⟨wanted, isWanted⟩

theorem named (resumable : Resumable tree here root rendered documents place)
    {writes : Entries LooseText Draft}
    (subset : Entries.keys writes ⊆ Entries.keys rendered ++ Entries.keys documents) :
    ∀ write ∈ writes, tree.Names here (root.join (Path.ofText write.1)) (place write.1) :=
  fun _ member => resumable.places.named _ (subset (List.mem_map_of_mem member))

/-- All paths are short when all files that are missing were written. -/
theorem isShort (resumable : Resumable tree here root rendered documents place)
    (captured : Snapshot.capture tree here root
      (Entries.keys rendered ++ Entries.keys documents) = .ok snapshot)
    (history : Apply.History root place (Plan.writes rendered snapshot documents) [] tree final) :
    ∀ path ∈ Entries.keys rendered ++ Entries.keys documents,
      FileTree.IsShort (root.join (Path.ofText path)) := by
  intro path member
  rcases Snapshot.capture_cases resumable.wellFormed resumable.places with
    ⟨isOk, areShort⟩ | ⟨-, error, isError⟩
  · have isSnapshot := Except.ok.inj (captured.symm.trans isOk)
    rcases areShort path member with absent | short
    · rw [← Plan.keys_candidates] at member
      obtain ⟨⟨other, candidate⟩, inCandidates, rfl⟩ := List.mem_map.mp member
      have inPaths := Plan.mem_paths_of_mem_candidates inCandidates
      dsimp only at absent inPaths
      have readable : snapshot.isUnreadable other = false := by
        rw [isSnapshot, Snapshot.isUnreadable_ofNodes inPaths, absent]
        rfl
      have isNew : snapshot.text? other = none := by
        rw [isSnapshot, Snapshot.text?_ofNodes inPaths, absent]
        rfl
      have planned := Plan.operationsOn_new readable isNew candidate
      have isDraft := congrArg (plannedDraft snapshot other) planned
      have isWrite := Plan.mem_writes_iff.mpr ⟨candidate, inCandidates, isDraft⟩
      exact (history.whole_and_isShort_of_mem isWrite (by simp)).2
    · exact short
  · rw [isError] at captured
    contradiction

/-- A run without failures is a sequence of writes that all go well. -/
theorem writeDrafts?_of_finished (resumable : Resumable tree here root rendered documents place)
    {operations : List FileOperation} {report : Report}
    (planned : plan rendered snapshot documents = .ok operations)
    (finished : applyOperations (fun _ => WriteFaults.none) here root operations snapshot tree =
      (.ok report, final))
    (noneFailed : report.failures = snapshot.unreadable) :
    Apply.writeDrafts? here root (Plan.writes rendered snapshot documents) tree = some final := by
  have distinct := resumable.places.nodup
  have isGrouped := Plan.byPath_plan distinct planned
  rw [← Plan.writes_byPath distinct planned]
  have run := Plan.applyOperations_cases (fun _ => WriteFaults.allOrNothing_none)
    resumable.wellFormed resumable.isHere resumable.places planned
  rw [finished] at run
  rcases run with ⟨found, isOk, -, keysFailures, -⟩ | ⟨⟨error, isError⟩, -⟩
  · obtain rfl := Except.ok.inj isOk
    rw [noneFailed] at keysFailures
    have failed := List.self_eq_append_right.mp keysFailures
    rw [applyOperations] at finished
    split at finished
    next failures after isRun =>
      have writes := Apply.writeDrafts?_of_writeAll
        (fun group member other => Plan.mergedDraft_of_mem (isGrouped ▸ member) here root other)
        (by rw [isRun]) failed
      rw [isRun] at writes
      rw [writes, (Prod.mk.inj finished).2]
    next => simp at finished
  · contradiction

end Resumable

/-- A run none of whose writes fails converges: stopped after any of its writes
and made again in full it ends with the same tree, where a further run creates
nothing, changes no region and no document, and writes nothing. -/
theorem interrupted_run_converges {tree final : FileTree} {here : Location} {root : Path}
    {rendered : Entries LooseText LooseText} {documents : Entries LooseText Draft}
    {place : LooseText → Location} (resumable : Resumable tree here root rendered documents place)
    {snapshot : Snapshot} {operations : List FileOperation} {report : Report}
    (captured : Snapshot.capture tree here root
      (Entries.keys rendered ++ Entries.keys documents) = .ok snapshot)
    (planned : plan rendered snapshot documents = .ok operations)
    (finished : applyOperations (fun _ => WriteFaults.none) here root operations snapshot tree =
      (.ok report, final))
    (noneFailed : report.failures = snapshot.unreadable) (count : Nat) :
    let left := (Apply.writeAll (fun _ => WriteFaults.none) here root snapshot
      ((Apply.byPath operations).take count) snapshot.unreadable tree).2
    (∃ later operations report,
      Snapshot.capture left here root (Entries.keys rendered ++ Entries.keys documents) =
          .ok later ∧
        plan rendered later documents = .ok operations ∧
        applyOperations (fun _ => WriteFaults.none) here root operations later left =
          (.ok report, final) ∧
        report.failures = later.unreadable) ∧
      ∃ last operations report,
        Snapshot.capture final here root (Entries.keys rendered ++ Entries.keys documents) =
            .ok last ∧
          plan rendered last documents = .ok operations ∧
          (∀ operation ∈ operations, operation.change ≠ .create ∧
            (operation.change ≠ .skip → operation.changed = false)) ∧
          applyOperations (fun _ => WriteFaults.none) here root operations last final =
            (.ok report, final) := by
  have distinct := resumable.places.nodup
  have isGrouped := Plan.byPath_plan distinct planned
  have merged : ∀ group ∈ Apply.byPath operations, ∀ tree,
      Apply.mergedDraft tree here root snapshot group.1 group.2 =
        .ok (plannedDraft snapshot group.1 group.2) :=
    fun group member other => Plan.mergedDraft_of_mem (isGrouped ▸ member) here root other
  have isFinal := resumable.writeDrafts?_of_finished planned finished noneFailed
  have splitWrites : Plan.writes rendered snapshot documents =
      Apply.writes snapshot ((Apply.byPath operations).take count) ++
        Apply.writes snapshot ((Apply.byPath operations).drop count) := by
    rw [← Apply.writes_append, List.take_append_drop, Plan.writes_byPath distinct planned]
  have subset := (Plan.keys_writes_sublist rendered snapshot documents).subset
  obtain ⟨finalFormed, wholeHistory⟩ := Apply.history_of_writeDrafts? resumable.wellFormed
    resumable.isHere (resumable.named subset) isFinal
  have short := resumable.isShort captured wholeHistory
  rw [splitWrites, Apply.writeDrafts?_append] at isFinal
  obtain ⟨middle, isMiddle, isLast⟩ := Option.bind_eq_some_iff.mp isFinal
  have isLeft := Apply.writeAll_of_writeDrafts?
    (fun group member => merged group (List.mem_of_mem_take member)) isMiddle snapshot.unreadable
  rw [isLeft]
  constructor
  · have firstSubset : Entries.keys (Apply.writes snapshot
        ((Apply.byPath operations).take count)) ⊆
        Entries.keys rendered ++ Entries.keys documents := by
      rw [splitWrites, Entries.keys_append] at subset
      exact fun path member => subset (List.mem_append_left _ member)
    obtain ⟨middleFormed, history⟩ := Apply.history_of_writeDrafts? resumable.wellFormed
      resumable.isHere (resumable.named firstSubset) isMiddle
    obtain ⟨later, capturedLater, isRest⟩ :=
      resumable.writes_resumed captured short splitWrites middleFormed history
    obtain ⟨laterOperations, laterPlanned⟩ := resumable.exists_plan later
    rw [← isRest] at isLast
    exact ⟨later, laterOperations, _, capturedLater, laterPlanned,
      Plan.applyOperations_of_writeDrafts? distinct laterPlanned isLast, rfl⟩
  · obtain ⟨last, capturedLast, noWrites⟩ := resumable.writes_resumed captured short
      (List.append_nil _).symm finalFormed wholeHistory
    obtain ⟨lastOperations, lastPlanned⟩ := resumable.exists_plan last
    refine ⟨last, lastOperations, _, capturedLast, lastPlanned,
      Plan.unchanged_of_writes_eq_nil lastPlanned noWrites,
      Plan.applyOperations_of_writeDrafts? distinct lastPlanned ?_⟩
    rw [noWrites]
    rfl

/-- A run that patches a module and creates a document converges. -/
theorem interrupted_run_converges_of_module :
    let path : LooseText := "a.py"
    let text : LooseText := framed "a.py" "x" "new\n"
    let existing : Text := framed "a.py" "x" "old\n"
    let document : LooseText := "b.json"
    let content : Text := "\x7b\x7d".toList
    let tree : FileTree := [(["a.py"], .file (.text existing))]
    let final : FileTree := [(["a.py"], .file (.text text.shown)), (["b.json"], .file (.text content))]
    let root : Path := ⟨.relative, []⟩
    let snapshot : Snapshot := { contents := [(path, some existing), (document, none)] }
    let operations : List FileOperation :=
      [.patch path "x" ("new\n".toList : Text) true, .create document content]
    let left := (Apply.writeAll (fun _ => WriteFaults.none) [] root snapshot
      ((Apply.byPath operations).take 1) [] tree).2
    ∃ later operations report, Snapshot.capture left [] root [path, document] = .ok later ∧
      plan [(path, text)] later [(document, content)] = .ok operations ∧
      applyOperations (fun _ => WriteFaults.none) [] root operations later left =
        (.ok report, final) := by
  intro path text existing document content tree final root snapshot operations left
  have found : findRegions "a.py" (framed "a.py" "x" "new\n".toList) =
      .ok [⟨"x", 20, 24⟩] := rfl
  have places : Places tree [] root [path, document] fun other => [other.label] := by
    refine ⟨by decide, fun other member => ?_, fun first isFirst second isSecond => ?_⟩
    · rcases List.mem_pair.mp member with rfl | rfl
      · exact ⟨by decide, rfl⟩
      · exact ⟨by decide, rfl⟩
    · rcases List.mem_pair.mp isFirst with rfl | rfl <;>
        rcases List.mem_pair.mp isSecond with rfl | rfl <;> decide
  have resumable : Resumable tree [] root [(path, text)] [(document, content)]
      fun other => [other.label] := by
    refine ⟨FileTree.wellFormed_of_entries (by decide), rfl, places, ?_, ?_, ?_⟩
    · decide
    · intro location other isFile
      have isEntry := List.mem_singleton.mp (FileTree.mem_of_fileAt? isFile)
      obtain rfl : other = existing := by simpa using (Prod.mk.inj isEntry).2
      exact Text.paired_of_noReturn (by decide)
    · intro file member
      obtain rfl := List.mem_singleton.mp member
      refine ⟨by decide, [⟨"x", 20, 24⟩], by simpa [path, text] using found, fun region member => ?_⟩
      obtain rfl := List.mem_singleton.mp member
      have lastFeed : (Region.body (framed "a.py" "x" "new\n".toList) ⟨"x", 20, 24⟩).getLast? =
          some '\n' := rfl
      intro c isLast
      rw [LooseText.shown_ofText, lastFeed] at isLast
      exact (Option.some.inj isLast).symm
  have captured : Snapshot.capture tree [] root [path, document] = .ok snapshot := rfl
  have planned : plan [(path, text)] snapshot [(document, content)] = .ok operations := by
    dsimp +zetaDelta only
    rfl
  have finished : applyOperations (fun _ => WriteFaults.none) [] root operations snapshot tree =
      (.ok { operations }, final) := by
    dsimp +zetaDelta only
    rfl
  obtain ⟨⟨later, again, report, capturedLater, plannedLater, isFinal, -⟩, -⟩ :=
    interrupted_run_converges resumable captured planned finished rfl 1
  exact ⟨later, again, report, capturedLater, plannedLater, isFinal⟩

/-- After a run that created a file without regions, a further plan leaves the
file alone and still says that it changes. -/
theorem changed_of_skipped_after_run :
    let path : LooseText := "a.txt"
    let text : LooseText := "x\n"
    let content : Text := "x\n".toList
    let final : FileTree := [(["a.txt"], .file (.text content))]
    let root : Path := ⟨.relative, []⟩
    let snapshot : Snapshot := { contents := [(path, none)] }
    let last : Snapshot := { contents := [(path, some content)] }
    Resumable [] [] root [(path, text)] [] (fun other => [other.label]) ∧
      Snapshot.capture [] [] root [path] = .ok snapshot ∧
      plan [(path, text)] snapshot [] = .ok [.create path content] ∧
      applyOperations (fun _ => WriteFaults.none) [] root [.create path content] snapshot [] =
        (.ok { operations := [.create path content] }, final) ∧
      Snapshot.capture final [] root [path] = .ok last ∧
      plan [(path, text)] last [] = .ok [.skip path none .alreadyExists] ∧
      (FileOperation.skip path none .alreadyExists).changed = true := by
  intro path text content final root snapshot last
  refine ⟨⟨FileTree.wellFormed_of_entries (by simp), rfl, ⟨by decide, ?_, ?_⟩, ?_, ?_, ?_⟩, ?_⟩
  · intro other member
    obtain rfl := List.mem_singleton.mp member
    exact ⟨by decide, rfl⟩
  · intro first isFirst second isSecond _
    rw [List.mem_singleton.mp isFirst, List.mem_singleton.mp isSecond]
  · decide
  · intro location other isFile
    exact absurd (FileTree.mem_of_fileAt? isFile) List.not_mem_nil
  · intro file member
    obtain rfl := List.mem_singleton.mp member
    refine ⟨by decide, [], ?_, by simp⟩
    dsimp +zetaDelta only
    rfl
  · dsimp +zetaDelta only
    exact ⟨rfl, rfl, rfl, rfl, rfl, rfl⟩

end ApiWorkshop
