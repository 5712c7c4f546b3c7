import ApiWorkshop.Proofs.Merge.Run
import ApiWorkshop.Proofs.Merge.Settled

/-!
# Taking up an interrupted run

When a run is stopped after some of its writes, the files that were written are
settled and the other ones are as they were.  A snapshot of the tree that is left
therefore leads to a plan of just the writes that are still to be made.
-/

namespace ApiWorkshop

namespace Apply

/-- Writes drafts one after the other, if all of these writes go well. -/
def writeDrafts? (here : Location) (root : Path) :
    Entries LooseText Draft → FileTree → Option FileTree
  | [], tree => some tree
  | (path, draft) :: writes, tree =>
      match tree.atomicWrite WriteFaults.none here (root.join (Path.ofText path)) draft with
      | (.ok _, next) => writeDrafts? here root writes next
      | (.error _, _) => none

theorem writeDrafts?_append (here : Location) (root : Path) (first second : Entries LooseText Draft)
    (tree : FileTree) :
    writeDrafts? here root (first ++ second) tree =
      (writeDrafts? here root first tree).bind (writeDrafts? here root second) := by
  induction first generalizing tree with
  | nil => rfl
  | cons write first ih =>
      simp only [List.cons_append, writeDrafts?]
      split
      · exact ih _
      · rfl

/-- A run whose writes go well makes them one after the other. -/
theorem writeAll_of_writeDrafts? {here : Location} {root : Path} {snapshot : Snapshot}
    {groups : Entries LooseText (List FileOperation)}
    (merged : ∀ group ∈ groups, ∀ tree,
      mergedDraft tree here root snapshot group.1 group.2 =
        .ok (plannedDraft snapshot group.1 group.2))
    {tree after : FileTree}
    (isAfter : writeDrafts? here root (writes snapshot groups) tree = some after)
    (failures : Entries LooseText Failure) :
    writeAll (fun _ => WriteFaults.none) here root snapshot groups failures tree =
      (.ok failures, after) := by
  induction groups generalizing tree with
  | nil => simpa [writes, writeDrafts?, writeAll] using isAfter
  | cons group groups ih =>
      obtain ⟨path, operations⟩ := group
      have rest := fun other member => merged other (List.mem_cons_of_mem (path, operations) member)
      have isMerged := merged (path, operations) (by simp) tree
      cases isDraft : plannedDraft snapshot path operations with
      | none =>
          rw [writes_cons_of_none groups isDraft] at isAfter
          simp only [writeAll, writeFile, isMerged, isDraft]
          exact ih rest isAfter
      | some draft =>
          rw [writes_cons_of_some groups isDraft, writeDrafts?] at isAfter
          split at isAfter
          next next isWritten =>
            simp only [writeAll, writeFile, isMerged, isDraft, isWritten]
            exact ih rest isAfter
          next => contradiction

theorem writeDrafts?_of_writeAll {here : Location} {root : Path} {snapshot : Snapshot}
    {groups : Entries LooseText (List FileOperation)}
    (merged : ∀ group ∈ groups, ∀ tree,
      mergedDraft tree here root snapshot group.1 group.2 =
        .ok (plannedDraft snapshot group.1 group.2))
    {tree : FileTree} {failures noted : Entries LooseText Failure}
    (isOk : (writeAll (fun _ => WriteFaults.none) here root snapshot groups failures tree).1 =
      .ok noted)
    (noneFailed : failedPaths (fun _ => WriteFaults.none) here root snapshot groups tree = []) :
    writeDrafts? here root (writes snapshot groups) tree =
      some (writeAll (fun _ => WriteFaults.none) here root snapshot groups failures tree).2 := by
  induction groups generalizing tree with
  | nil => simp [writes, writeDrafts?, writeAll]
  | cons group groups ih =>
      obtain ⟨path, operations⟩ := group
      have rest := fun other member => merged other (List.mem_cons_of_mem (path, operations) member)
      have isMerged := merged (path, operations) (by simp) tree
      cases isDraft : plannedDraft snapshot path operations with
      | none =>
          rw [writes_cons_of_none groups isDraft]
          simp only [writeAll, failedPaths, writeFile, isMerged, isDraft] at isOk noneFailed ⊢
          exact ih rest isOk noneFailed
      | some draft =>
          rw [writes_cons_of_some groups isDraft, writeDrafts?]
          simp only [writeAll, failedPaths, writeFile, isMerged, isDraft] at isOk noneFailed ⊢
          generalize tree.atomicWrite WriteFaults.none here (root.join (Path.ofText path)) draft =
            result at isOk noneFailed ⊢
          obtain ⟨outcome, next⟩ := result
          cases outcome with
          | ok _ => exact ih rest isOk noneFailed
          | error error => simp at noneFailed

/-- Writes that go well have a history without failures. -/
theorem history_of_writeDrafts? {here : Location} {root : Path} {place : LooseText → Location}
    {writes : Entries LooseText Draft} {tree after : FileTree} (wellFormed : tree.WellFormed)
    (isHere : tree.at? here = some .directory)
    (named : ∀ write ∈ writes, tree.Names here (root.join (Path.ofText write.1)) (place write.1))
    (isAfter : writeDrafts? here root writes tree = some after) :
    after.WellFormed ∧ History root place writes [] tree after := by
  induction writes generalizing tree with
  | nil =>
      obtain rfl := Option.some.inj isAfter
      exact ⟨wellFormed, .done⟩
  | cons write writes ih =>
      obtain ⟨path, draft⟩ := write
      have names := named (path, draft) (by simp)
      have outcome := wellFormed.atomicWrite_cases WriteFaults.allOrNothing_none isHere names draft
      unfold writeDrafts? at isAfter
      split at isAfter
      next next isWritten =>
        rw [isWritten] at outcome
        obtain ⟨nextFormed, ⟨-, whole, short, -, written⟩ | ⟨error, isError, -⟩⟩ := outcome
        · obtain ⟨afterFormed, history⟩ := ih nextFormed (written.keeps isHere)
            (fun other member => (named other (List.mem_cons_of_mem _ member)).of_directories
              fun _ => written.keeps) isAfter
          exact ⟨afterFormed, .wrote whole short written history⟩
        · contradiction
      next => contradiction

end Apply

/-- A project whose files can be merged again and again: the paths name places
of which none is on the way to another, carriage returns stand only in line ends,
and the rendered texts are plain. -/
structure Resumable (tree : FileTree) (here : Location) (root : Path)
    (rendered : Entries LooseText LooseText) (documents : Entries LooseText Draft)
    (place : LooseText → Location) : Prop where
  wellFormed : tree.WellFormed
  isHere : tree.at? here = some .directory
  places : Places tree here root (Entries.keys rendered ++ Entries.keys documents) place
  separate : ∀ path ∈ Entries.keys rendered ++ Entries.keys documents,
    ∀ other ∈ Entries.keys rendered ++ Entries.keys documents,
      path ≠ other → ¬ place path <+: place other
  paired : ∀ location text, tree.fileAt? location = some (.text text) → Text.Paired text
  plain : ∀ file ∈ rendered, PlainRendered file.1 file.2

namespace Plan

/-- Where the first of the planned writes have nothing to do any more and the
others are as before, only the others are left. -/
theorem filterMap_eq_of_done {κ α β : Type} {entries : Entries κ α}
    {before later : κ × α → Option β}
    (distinct : (Entries.keys entries).Nodup) {first second : Entries κ β}
    (split : entries.filterMap (fun entry => (before entry).map fun found => (entry.1, found)) =
      first ++ second)
    (done : ∀ entry ∈ entries, entry.1 ∈ Entries.keys first → later entry = none)
    (left : ∀ entry ∈ entries, entry.1 ∉ Entries.keys first → later entry = before entry) :
    entries.filterMap (fun entry => (later entry).map fun found => (entry.1, found)) = second := by
  induction entries generalizing first with
  | nil =>
      obtain ⟨-, rfl⟩ := List.append_eq_nil_iff.mp split.symm
      rfl
  | cons entry entries ih =>
      obtain ⟨isNew, restDistinct⟩ := List.nodup_cons.mp distinct
      have restDone := fun other member => done other (List.mem_cons_of_mem entry member)
      have restLeft := fun other member => left other (List.mem_cons_of_mem entry member)
      cases isBefore : before entry with
      | none =>
          rw [List.filterMap_cons_none (by simp [isBefore])] at split
          have noLater : later entry = none := by
            by_cases inFirst : entry.1 ∈ Entries.keys first
            · exact done entry (by simp) inFirst
            · rw [left entry (by simp) inFirst, isBefore]
          rw [List.filterMap_cons_none (by simp [noLater])]
          exact ih restDistinct split restDone restLeft
      | some found =>
          rw [List.filterMap_cons_some (b := (entry.1, found)) (by simp [isBefore])] at split
          cases first with
          | nil =>
              have isLater := left entry (by simp) (by simp [Entries.keys])
              rw [isBefore] at isLater
              rw [List.filterMap_cons_some (b := (entry.1, found)) (by simp [isLater]),
                ← List.nil_append second, ← split]
              congr 1
              refine List.filterMap_congr fun other member => ?_
              rw [restLeft other member (by simp [Entries.keys])]
          | cons write first =>
              obtain ⟨rfl, restSplit⟩ := List.cons.inj split
              have noLater := done entry (by simp) (by simp [Entries.keys])
              rw [List.filterMap_cons_none (by simp [noLater])]
              have different : ∀ other ∈ entries, other.1 ≠ entry.1 := fun other member same =>
                isNew (List.mem_map.mpr ⟨other, member, same⟩)
              refine ih restDistinct restSplit (fun other member inRest => ?_)
                fun other member notRest => ?_
              · exact restDone other member (List.mem_cons_of_mem _ inRest)
              · refine restLeft other member fun inFirst => ?_
                rcases List.mem_cons.mp inFirst with same | inRest
                · exact different other member same
                · exact notRest inRest

theorem writes_eq (rendered : Entries LooseText LooseText) (snapshot : Snapshot)
    (documents : Entries LooseText Draft) :
    writes rendered snapshot documents =
      (candidates rendered documents).filterMap fun entry =>
        (plannedDraft snapshot entry.1 (operationsOn snapshot entry.1 entry.2)).map
          fun draft => (entry.1, draft) := by
  rw [writes, Apply.writes, files, List.filterMap_map]
  rfl

end Plan

namespace Resumable

variable {tree left : FileTree} {here : Location} {root : Path}
  {rendered : Entries LooseText LooseText} {documents : Entries LooseText Draft}
  {place : LooseText → Location}

/-- What is in place is not planned again. -/
theorem plannedDraft_eq_none (resumable : Resumable tree here root rendered documents place)
    {paths : List LooseText} {path : LooseText} (inPaths : path ∈ paths)
    {candidate : Plan.Candidate} (member : (path, candidate) ∈ Plan.candidates rendered documents)
    {draft : Draft} (whole : draft.whole = true) :
    let before := Snapshot.ofNodes root paths fun path => tree.at? (place path)
    let later := Snapshot.ofNodes root paths fun path => left.at? (place path)
    plannedDraft before path (Plan.operationsOn before path candidate) = some draft →
      left.fileAt? (place path) = some (.text draft.text) →
        plannedDraft later path (Plan.operationsOn later path candidate) = none := by
  intro before later isPlanned isHeld
  refine Plan.plannedDraft_of_held isPlanned whole (fun existing isThere => ?_)
    (fun text isText => ?_) (Snapshot.isUnreadable_of_fileAt? inPaths isHeld)
    ((Snapshot.text?_ofNodes_eq_some_iff inPaths).mpr isHeld)
  · exact resumable.paired _ _ ((Snapshot.text?_ofNodes_eq_some_iff inPaths).mp isThere)
  · subst isText
    exact resumable.plain (path, text) (Plan.rendered_mem_candidates_iff.mp member)

/-- What is planned for a path depends on what stands at its place only. -/
theorem plannedDraft_of_untouched {paths : List LooseText} {path : LooseText}
    (inPaths : path ∈ paths) (untouched : left.at? (place path) = tree.at? (place path))
    (candidate : Plan.Candidate) :
    let before := Snapshot.ofNodes root paths fun path => tree.at? (place path)
    let later := Snapshot.ofNodes root paths fun path => left.at? (place path)
    plannedDraft later path (Plan.operationsOn later path candidate) =
      plannedDraft before path (Plan.operationsOn before path candidate) := by
  refine Plan.plannedDraft_congr ?_ ?_ candidate
  · rw [Snapshot.text?_ofNodes inPaths, Snapshot.text?_ofNodes inPaths, untouched]
  · rw [Snapshot.isUnreadable_ofNodes inPaths, Snapshot.isUnreadable_ofNodes inPaths, untouched]

/-- From the tree that is left after some writes just the other ones are
planned. -/
theorem writes_resumed (resumable : Resumable tree here root rendered documents place)
    {snapshot : Snapshot}
    (captured : Snapshot.capture tree here root
      (Entries.keys rendered ++ Entries.keys documents) = .ok snapshot)
    (short : ∀ path ∈ Entries.keys rendered ++ Entries.keys documents,
      FileTree.IsShort (root.join (Path.ofText path)))
    {first second : Entries LooseText Draft}
    (split : Plan.writes rendered snapshot documents = first ++ second)
    (leftFormed : left.WellFormed)
    (history : Apply.History root place first [] tree left) :
    ∃ later, Snapshot.capture left here root (Entries.keys rendered ++ Entries.keys documents) =
        .ok later ∧
      Plan.writes rendered later documents = second := by
  generalize isPaths : Entries.keys rendered ++ Entries.keys documents = paths at *
  have places := resumable.places
  have separate := resumable.separate
  rw [isPaths] at places separate
  have isSnapshot := Snapshot.eq_ofNodes_of_capture resumable.wellFormed places captured
  have capturedLater : Snapshot.capture left here root paths =
      .ok (Snapshot.ofNodes root paths fun path => left.at? (place path)) := by
    rcases Snapshot.capture_cases leftFormed (places.of_directories fun _ => history.keeps) with
      ⟨isOk, -⟩ | ⟨⟨path, member, notShort⟩, -⟩
    · exact isOk
    · exact absurd (short path member) notShort
  refine ⟨_, capturedLater, ?_⟩
  have isPath {entry : LooseText × Plan.Candidate}
      (member : entry ∈ Plan.candidates rendered documents) : entry.1 ∈ paths := by
    rw [← isPaths]
    exact Plan.mem_paths_of_mem_candidates member
  have firstPaths : (Entries.keys first).Sublist paths := by
    have sublist := Plan.keys_writes_sublist rendered snapshot documents
    rw [split, isPaths, Entries.keys_append] at sublist
    exact (List.sublist_append_left _ _).trans sublist
  have distinct : (Entries.keys (Plan.candidates rendered documents)).Nodup := by
    rw [Plan.keys_candidates, isPaths]
    exact places.nodup
  rw [Plan.writes_eq] at split ⊢
  refine Plan.filterMap_eq_of_done distinct split ?_ ?_
  · rintro ⟨path, candidate⟩ member inFirst
    obtain ⟨⟨other, draft⟩, isWrite, samePath⟩ := List.mem_map.mp inFirst
    obtain rfl : path = other := samePath.symm
    have inPaths := isPath member
    have planned : plannedDraft snapshot path (Plan.operationsOn snapshot path candidate) =
        some draft := by
      have isPlanned : (path, draft) ∈ Plan.writes rendered snapshot documents := by
        rw [Plan.writes_eq, split]
        exact List.mem_append_left second isWrite
      obtain ⟨other, otherMember, otherDraft⟩ := Plan.mem_writes_iff.mp isPlanned
      rwa [Entries.value_eq_of_mem distinct member otherMember]
    have isHeld := history.fileAt?_of_mem (firstPaths.nodup places.nodup)
      (fun one inOne two inTwo =>
        places.apart one (firstPaths.subset inOne) two (firstPaths.subset inTwo))
      isWrite (by simp)
    have whole := (history.whole_and_isShort_of_mem isWrite (by simp)).1
    rw [isSnapshot] at planned
    exact plannedDraft_eq_none resumable inPaths member whole planned isHeld
  · rintro ⟨path, candidate⟩ member notFirst
    have inPaths := isPath member
    have untouched : left.at? (place path) = tree.at? (place path) := by
      refine history.at?_of_notPrefix fun write isWrite => ?_
      have inFirst : write.1 ∈ Entries.keys first := List.mem_map_of_mem isWrite
      refine separate path inPaths write.1 (firstPaths.subset inFirst) ?_
      rintro rfl
      exact notFirst inFirst
    rw [isSnapshot]
    exact plannedDraft_of_untouched inPaths untouched candidate

end Resumable

end ApiWorkshop
