import ApiWorkshop.Proofs.Region.Settled
import ApiWorkshop.Proofs.Run.Fresh

/-!
# Plans for files as they were rendered

A plan is made where every file is as it was rendered.  Documents are written anew without
a change, files without regions are left alone, and each region is patched with the body
that it has, which is a change exactly if the region is not settled.
-/

namespace ApiWorkshop

namespace Plan

variable {rendered : Entries LooseText LooseText} {documents : Entries LooseText Draft}
  {snapshot : Snapshot} {operations : List FileOperation} {path text : LooseText}
  {regions : List Region} {region : Region} {operation : FileOperation}

/-- The operations on files that are as they were rendered. -/
inductive IsRepeated (rendered : Entries LooseText LooseText)
    (documents : Entries LooseText Draft) : FileOperation → Prop
  | document {path : LooseText} {content : Draft} (isDocument : (path, content) ∈ documents) :
      IsRepeated rendered documents (.regenerate path content false)
  | plain {path text : LooseText} (isText : (path, text) ∈ rendered)
      (noRegions : findRegions path.label text.shown = .ok []) :
      IsRepeated rendered documents (.skip path none .alreadyExists)
  | patched {path text : LooseText} {regions : List Region} {region : Region} {changed : Bool}
      (isText : (path, text) ∈ rendered)
      (found : findRegions path.label text.shown = .ok regions) (member : region ∈ regions)
      (changes_iff : changed = true ↔ ¬ region.IsSettled text.shown) :
      IsRepeated rendered documents
        (.patch path region.name (LooseText.draft (region.body text)) changed)

/-- What a plan has where every file is as it was rendered: the markers of the rendered
texts are in order, every path has an operation, and the operations are the repeated
ones. -/
structure Repeats (rendered : Entries LooseText LooseText) (documents : Entries LooseText Draft)
    (operations : List FileOperation) : Prop where
  found : ∀ path text, (path, text) ∈ rendered →
    ∃ regions, findRegions path.label text.shown = .ok regions
  covers : ∀ path ∈ Entries.keys rendered ++ Entries.keys documents,
    ∃ operation ∈ operations, operation.path = path
  mem_iff : ∀ operation, operation ∈ operations ↔ IsRepeated rendered documents operation

/-- The body of a region changes in its own text exactly if the region is not settled. -/
theorem changesBody_self_iff (whole : text.isWhole = true)
    (found : findRegions path.label text.shown = .ok regions) (member : region ∈ regions) :
    changesBody text.shown region (LooseText.draft (region.body text)) = true ↔
      ¬ region.IsSettled text.shown := by
  rw [← Bool.not_eq_false, not_iff_not,
    changesBody_eq_false_iff (Region.ordered_of_mem found member), shown_body, Region.isSettled_iff]
  exact and_iff_right (Region.isWhole_body whole region)

/-- A text that is there as it was rendered has a patch for each of its regions. -/
theorem mem_regionOperations_self_iff (whole : text.isWhole = true)
    (found : findRegions path.label text.shown = .ok regions) :
    operation ∈ regionOperations path text.shown text regions ↔
      (regions = [] ∧ operation = .skip path none .alreadyExists) ∨
        ∃ region ∈ regions, ∃ changed, (changed = true ↔ ¬ region.IsSettled text.shown) ∧
          operation = .patch path region.name (LooseText.draft (region.body text)) changed := by
  rw [regionOperations]
  split
  next isEmpty =>
    obtain rfl := List.isEmpty_iff.mp isEmpty
    simp
  next someRegion =>
    have notEmpty : regions ≠ [] := fun isEmpty => someRegion (List.isEmpty_iff.mpr isEmpty)
    rw [found]
    simp only [notEmpty, false_and, false_or, List.mem_map]
    refine exists_congr fun region => and_congr_right fun member => ?_
    simp only [regionOperation, Region.find?_of_mem (Region.names_nodup found) member]
    have changes_iff := changesBody_self_iff whole found member
    constructor
    · rintro rfl
      exact ⟨_, changes_iff, rfl⟩
    · rintro ⟨changed, isChange, rfl⟩
      rw [Bool.eq_iff_iff.mpr (changes_iff.trans isChange.symm)]

/-- A candidate that is there as it was rendered. -/
structure Candidate.IsHeld (snapshot : Snapshot) (path : LooseText) (candidate : Candidate) :
    Prop where
  whole : candidate.draft.whole = true
  readable : snapshot.isUnreadable path = false
  isThere : snapshot.text? path = some candidate.draft.text

/-- What is planned for a rendered text that is there. -/
theorem mem_operationsOn_self_iff (held : (Candidate.rendered text).IsHeld snapshot path)
    (found : findRegions path.label text.shown = .ok regions) :
    operation ∈ operationsOn snapshot path (.rendered text) ↔
      (regions = [] ∧ operation = .skip path none .alreadyExists) ∨
        ∃ region ∈ regions, ∃ changed, (changed = true ↔ ¬ region.IsSettled text.shown) ∧
          operation = .patch path region.name (LooseText.draft (region.body text)) changed := by
  rw [operationsOn_rendered held.readable held.isThere found]
  exact mem_regionOperations_self_iff held.whole found

/-- What is planned for a document that is there. -/
theorem operationsOn_document_self {content : Draft}
    (held : (Candidate.document content).IsHeld snapshot path) :
    operationsOn snapshot path (.document content) = [.regenerate path content false] := by
  have isWhole : content.whole = true := held.whole
  have isHeld : content.isHeldBy (Candidate.document content).draft.text = true := by
    simp [Draft.isHeldBy, Candidate.draft, isWhole]
  rw [operationsOn_document held.readable held.isThere, isHeld]
  rfl

theorem mem_operations_iff (planned : plan rendered snapshot documents = .ok operations) :
    operation ∈ operations ↔ ∃ path candidate, (path, candidate) ∈ candidates rendered documents ∧
      operation ∈ operationsOn snapshot path candidate := by
  obtain ⟨-, rfl⟩ := plan_eq_ok_iff.mp planned
  simp only [files, List.flatMap_map, List.mem_flatMap, Prod.exists]

/-! ## Plans where everything is there -/

section Held

variable (held : ∀ path candidate, (path, candidate) ∈ candidates rendered documents →
  candidate.IsHeld snapshot path)

include held

/-- The markers of a rendered text are in order if there is a plan. -/
theorem exists_regions_of_plan (planned : plan rendered snapshot documents = .ok operations)
    (isText : (path, text) ∈ rendered) :
    ∃ regions, findRegions path.label text.shown = .ok regions := by
  have isHeld := held path _ (rendered_mem_candidates_iff.mpr isText)
  have isThere : snapshot.text? path = some text.shown := isHeld.isThere
  obtain ⟨made, isMade⟩ := (plan_eq_ok_iff.mp planned).1 _ isText
  cases isFound : findRegions path.label text.shown with
  | ok regions => exact ⟨regions, rfl⟩
  | error conflict =>
      simp [fileOperations, isHeld.readable, isThere, isFound, Bind.bind, Except.bind] at isMade

theorem isRepeated_of_mem (planned : plan rendered snapshot documents = .ok operations)
    {candidate : Candidate} (inCandidates : (path, candidate) ∈ candidates rendered documents)
    (member : operation ∈ operationsOn snapshot path candidate) :
    IsRepeated rendered documents operation := by
  have isHeld := held path candidate inCandidates
  cases candidate with
  | document content =>
      rw [operationsOn_document_self isHeld, List.mem_singleton] at member
      rw [member]
      exact .document (document_mem_candidates_iff.mp inCandidates)
  | rendered text =>
      have isText := rendered_mem_candidates_iff.mp inCandidates
      obtain ⟨regions, isFound⟩ := exists_regions_of_plan held planned isText
      rcases (mem_operationsOn_self_iff isHeld isFound).mp member with
        ⟨rfl, rfl⟩ | ⟨region, inRegions, changed, changes_iff, rfl⟩
      · exact .plain isText isFound
      · exact .patched isText isFound inRegions changes_iff

theorem exists_mem_of_isRepeated (repeated : IsRepeated rendered documents operation) :
    ∃ path candidate, (path, candidate) ∈ candidates rendered documents ∧
      operation ∈ operationsOn snapshot path candidate := by
  cases repeated with
  | @document path content isDocument =>
      have inCandidates : (path, .document content) ∈ candidates rendered documents :=
        document_mem_candidates_iff.mpr isDocument
      refine ⟨path, _, inCandidates, ?_⟩
      rw [operationsOn_document_self (held path _ inCandidates)]
      exact List.mem_singleton_self _
  | @plain path text isText noRegions =>
      have inCandidates : (path, .rendered text) ∈ candidates rendered documents :=
        rendered_mem_candidates_iff.mpr isText
      exact ⟨path, _, inCandidates,
        (mem_operationsOn_self_iff (held path _ inCandidates) noRegions).mpr (.inl ⟨rfl, rfl⟩)⟩
  | @patched path text _ region changed isText isFound inRegions changes_iff =>
      have inCandidates : (path, .rendered text) ∈ candidates rendered documents :=
        rendered_mem_candidates_iff.mpr isText
      exact ⟨path, _, inCandidates, (mem_operationsOn_self_iff (held path _ inCandidates)
        isFound).mpr (.inr ⟨region, inRegions, changed, changes_iff, rfl⟩)⟩

/-- A plan repeats what it finds as it was rendered. -/
theorem repeats_of_plan (planned : plan rendered snapshot documents = .ok operations) :
    Repeats rendered documents operations := by
  have mem_iff (operation : FileOperation) :
      operation ∈ operations ↔ IsRepeated rendered documents operation := by
    rw [mem_operations_iff planned]
    exact ⟨fun ⟨_, _, inCandidates, member⟩ => isRepeated_of_mem held planned inCandidates member,
      exists_mem_of_isRepeated held⟩
  refine ⟨fun path text => exists_regions_of_plan held planned, fun path member => ?_, mem_iff⟩
  rcases List.mem_append.mp member with inRendered | inDocuments
  · obtain ⟨⟨path, text⟩, isText, rfl⟩ := List.mem_map.mp inRendered
    obtain ⟨regions, isFound⟩ := exists_regions_of_plan held planned isText
    cases regions with
    | nil => exact ⟨_, (mem_iff _).mpr (.plain isText isFound), rfl⟩
    | cons region regions =>
        have isHeld := held path _ (rendered_mem_candidates_iff.mpr isText)
        exact ⟨_, (mem_iff _).mpr (.patched isText isFound List.mem_cons_self
          (changesBody_self_iff isHeld.whole isFound List.mem_cons_self)), rfl⟩
  · obtain ⟨document, isDocument, rfl⟩ := List.mem_map.mp inDocuments
    exact ⟨_, (mem_iff _).mpr (.document isDocument), rfl⟩

end Held

namespace Repeats

variable (repeats : Repeats rendered documents operations) (isText : (path, text) ∈ rendered)

include repeats isText

theorem no_conflict (conflict : Conflict) :
    findRegions path.label text.shown ≠ .error conflict := by
  obtain ⟨regions, found⟩ := repeats.found path text isText
  rw [found]
  exact nofun

/-- A file without regions is left alone by an operation that is marked as a change. -/
theorem exists_skip (noRegions : findRegions path.label text.shown = .ok []) :
    ∃ operation ∈ operations, operation.path = path ∧ operation.change = .skip ∧
      operation.changed = true :=
  ⟨_, (repeats.mem_iff _).mpr (.plain isText noRegions), rfl, rfl, rfl⟩

/-- A region that is not settled is patched. -/
theorem exists_patch (found : findRegions path.label text.shown = .ok regions)
    (member : region ∈ regions) (notSettled : ¬ region.IsSettled text.shown) :
    ∃ operation ∈ operations, operation.path = path ∧ operation.change = .patch ∧
      operation.changed = true :=
  ⟨_, (repeats.mem_iff _).mpr (.patched isText found member (iff_of_true rfl notSettled)), rfl, rfl,
    rfl⟩

end Repeats

end Plan

end ApiWorkshop
