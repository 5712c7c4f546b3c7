import ApiWorkshop.Proofs.Merge.Groups
import ApiWorkshop.Proofs.Region.Bodies

/-!
# The drafts that a plan comes to

What is written for a file does not depend on the tree at the time of the write:
it is the draft that is created or regenerated, or the text of the snapshot with
the bodies of all changed regions in place at once.  Patches that were planned
one by one against that text never meet a conflict when they are made one after
the other.
-/

namespace ApiWorkshop

/-- The text of a file with contents as the bodies of some of its regions.  A
file whose markers make no regions stays as it is. -/
def patchedText (path : LooseText) (text : Text) (contents : List (String × Text)) : Text :=
  match findRegions path.label text with
  | .ok regions =>
      Region.replaceBodies (Region.placeBodies text regions [] contents) text 0 regions
  | .error _ => text

/-- The names and texts of patches. -/
def patchTexts (patches : List (String × Draft)) : List (String × Text) :=
  patches.map fun patch => (patch.1, patch.2.text)

/-- The draft that the operations on a file come to, from the text that a
snapshot has of it; nothing if the file is left alone. -/
def plannedDraft (snapshot : Snapshot) (path : LooseText) (operations : List FileOperation) :
    Option Draft :=
  match Apply.wholeDraft? operations with
  | some draft => draft
  | none =>
      match Apply.patches operations, snapshot.text? path with
      | [], _ => none
      | _, none => none
      | patches, some text =>
          some ⟨patchedText path text (patchTexts patches), patches.all (·.2.whole)⟩

namespace Apply

/-- Patches of different regions, made one after the other, put all their bodies
in place. -/
theorem patched_eq_ok {path : String} {text : Text} {regions : List Region}
    (found : findRegions path text = .ok regions) (patches : List (String × Draft))
    (distinct : (patches.map Prod.fst).Nodup)
    (present : ∀ patch ∈ patches, patch.1 ∈ regions.map Region.name)
    (unmarked : ∀ patch ∈ patches,
      Region.Unmarked (CommentStyle.ofPath path) patch.2.text)
    (bodies : Entries String Text) (fit : Region.Fit (CommentStyle.ofPath path) bodies)
    (isNew : ∀ patch ∈ patches, Entries.get? patch.1 bodies = none) (whole : Bool) :
    patched path ⟨Region.replaceBodies bodies text 0 regions, whole⟩ patches =
      .ok ⟨Region.replaceBodies
          (Region.placeBodies text regions bodies (patchTexts patches)) text 0 regions,
        whole && patches.all (·.2.whole)⟩ := by
  obtain ⟨lead, blocks, layout, rfl⟩ := Region.findRegions_eq_ok_iff.mp found
  rw [Block.map_name_regions] at present
  induction patches generalizing bodies whole with
  | nil => simp [patched, patchTexts, Region.placeBodies]
  | cons patch patches ih =>
      obtain ⟨name, content⟩ := patch
      obtain ⟨nameNew, restDistinct⟩ := List.nodup_cons.mp distinct
      have spliced := Region.spliceRegion_replaceBodies layout fit
        (present (name, content) (by simp)) (isNew (name, content) (by simp)) content.text
      dsimp only at spliced
      have contentUnmarked := unmarked (name, content) (by simp)
      generalize isCurrent : Region.replaceBodies bodies text 0
        (Block.regions lead.flatten.length blocks) = current at spliced ⊢
      have fitNow := Region.fit_put name fit (Region.endsLine_bodyFor current content.text)
        (Region.unmarked_bodyFor contentUnmarked current)
      have stillNew : ∀ other ∈ patches, Entries.get? other.1 (Entries.put name
          (Region.bodyFor (Region.lineEnd current) content.text) bodies) = none := by
        intro other member
        have different : other.1 ≠ name := fun sameName =>
          nameNew (List.mem_map.mpr ⟨other, member, sameName⟩)
        rw [Entries.get?_put_of_ne different]
        exact isNew other (List.mem_cons_of_mem _ member)
      have rest := ih restDistinct
        (fun other member => unmarked other (List.mem_cons_of_mem _ member)) _ fitNow stillNew
        (whole && content.whole)
        (fun other member => present other (List.mem_cons_of_mem _ member))
      simp only [patched, spliced, Bind.bind, Except.bind]
      rw [rest, patchTexts, patchTexts, List.map_cons, Region.placeBodies, List.all_cons,
        Bool.and_assoc, isCurrent]

end Apply

namespace Plan

/-- Whether the region of a rendered text is also one of the text of its file
and would change there. -/
def isPatched (existing : Text) (present : List Region) (rendered : LooseText)
    (wanted : Region) : Bool :=
  (present.find? (·.name = wanted.name)).any fun region =>
    changesBody existing region (LooseText.draft (wanted.body rendered))

/-- The regions of a rendered text that change the text of its file, with their
new bodies. -/
def bodyPatches (existing : Text) (present : List Region) (rendered : LooseText)
    (wanted : List Region) : List (String × Draft) :=
  (wanted.filter (isPatched existing present rendered)).map fun region =>
    (region.name, LooseText.draft (region.body rendered))

theorem patches_map_regionOperation (path : LooseText) (existing : Text)
    (present : List Region) (rendered : LooseText) (wanted : List Region) :
    Apply.patches (wanted.map (regionOperation path existing present rendered)) =
      bodyPatches existing present rendered wanted := by
  induction wanted with
  | nil => rfl
  | cons region wanted ih =>
      rw [Apply.patches, bodyPatches] at ih
      cases found : present.find? (·.name = region.name) with
      | none =>
          simp [Apply.patches, bodyPatches, regionOperation, isPatched, found, ih,
            FileOperation.skip]
      | some shared =>
          cases changes : changesBody existing shared (LooseText.draft (region.body rendered)) <;>
            simp [Apply.patches, bodyPatches, regionOperation, isPatched, found, ih, changes,
              FileOperation.patch]

theorem patches_regionOperations (path : LooseText) (existing : Text) (rendered : LooseText)
    (wanted : List Region) :
    Apply.patches (regionOperations path existing rendered wanted) =
      match findRegions path.label existing with
      | .ok present => bodyPatches existing present rendered wanted
      | .error _ => [] := by
  rw [regionOperations]
  split
  next isEmpty =>
    rw [List.isEmpty_iff.mp isEmpty]
    split <;> rfl
  next =>
    cases findRegions path.label existing with
    | error conflict => rfl
    | ok present => exact patches_map_regionOperation path existing present rendered wanted

theorem wholeDraft?_regionOperations (path : LooseText) (existing : Text)
    (rendered : LooseText) (wanted : List Region) :
    Apply.wholeDraft? (regionOperations path existing rendered wanted) = none := by
  rw [regionOperations]
  split
  · rfl
  · cases findRegions path.label existing with
    | error conflict => rfl
    | ok present =>
        simp only [Apply.wholeDraft?, List.findSome?_map, List.findSome?_eq_none_iff,
          Function.comp_apply]
        intro region _
        cases found : present.find? (·.name = region.name) <;>
          simp [regionOperation, found, FileOperation.skip, FileOperation.patch]

/-- A planned patch is for a region of both texts and brings the rendered body. -/
theorem mem_bodyPatches {existing : Text} {present : List Region} {rendered : LooseText}
    {wanted : List Region} {patch : String × Draft}
    (member : patch ∈ bodyPatches existing present rendered wanted) :
    ∃ region ∈ wanted, region.name ∈ present.map Region.name ∧
      patch = (region.name, LooseText.draft (region.body rendered)) := by
  obtain ⟨region, isKept, rfl⟩ := List.mem_map.mp member
  obtain ⟨inWanted, changes⟩ := List.mem_filter.mp isKept
  obtain ⟨shared, isShared, -⟩ := (Option.any_eq_true _ _).mp changes
  have sameName := List.find?_some isShared
  refine ⟨region, inWanted, ?_, rfl⟩
  exact List.mem_map.mpr ⟨shared, List.mem_of_find?_eq_some isShared, by simpa using sameName⟩

theorem nodup_bodyPatches (existing : Text) (present : List Region) {path rendered : LooseText}
    {wanted : List Region} (isWanted : findRegions path.label rendered.shown = .ok wanted) :
    ((bodyPatches existing present rendered wanted).map Prod.fst).Nodup := by
  have kept : (bodyPatches existing present rendered wanted).map Prod.fst =
      (wanted.filter (isPatched existing present rendered)).map Region.name := by
    simp [bodyPatches]
  rw [kept]
  exact (List.filter_sublist.map Region.name).nodup (Region.names_nodup isWanted)

/-- The patches of a plan are for different regions of the file, with bodies
that have no marker line. -/
theorem patched_bodyPatches {path : LooseText} {existing : Text} {rendered : LooseText}
    {present wanted : List Region} (found : findRegions path.label existing = .ok present)
    (isWanted : findRegions path.label rendered.shown = .ok wanted) :
    let patches := bodyPatches existing present rendered wanted
    Apply.patched path.label existing patches =
      .ok ⟨patchedText path existing (patchTexts patches), patches.all (·.2.whole)⟩ := by
  intro patches
  have inBoth : ∀ patch ∈ patches, patch.1 ∈ present.map Region.name ∧
      Region.Unmarked (CommentStyle.ofPath path.label) patch.2.text := by
    intro patch member
    obtain ⟨region, inWanted, inPresent, rfl⟩ := mem_bodyPatches member
    have unmarked := Region.unmarked_body isWanted inWanted
    refine ⟨inPresent, ?_⟩
    simpa [LooseText.draft, LooseText.shown, Region.body, List.map_drop, List.map_take]
      using unmarked
  have made := Apply.patched_eq_ok found patches (nodup_bodyPatches existing present isWanted)
    (fun patch member => (inBoth patch member).1) (fun patch member => (inBoth patch member).2)
    [] (Region.fit_nil _) (fun _ _ => rfl) true
  rw [Region.replaceBodies_nil found, Bool.true_and] at made
  simpa [patchedText, found] using made

/-! ## What is planned for a candidate -/

theorem operationsOn_unreadable {snapshot : Snapshot} {path : LooseText}
    (unreadable : snapshot.isUnreadable path = true) (candidate : Candidate) :
    operationsOn snapshot path candidate = [] := by
  cases candidate <;>
    simp [operationsOn, fileOperations, documentOperations, unreadable, Except.toOption]

theorem operationsOn_new {snapshot : Snapshot} {path : LooseText}
    (readable : snapshot.isUnreadable path = false) (isNew : snapshot.text? path = none) :
    ∀ candidate : Candidate, operationsOn snapshot path candidate =
      [.create path (match candidate with
        | .rendered text => text.draft
        | .document content => content)]
  | .rendered text => by
      simp [operationsOn, fileOperations, readable, isNew, Except.toOption]
  | .document content => by simp [operationsOn, documentOperations, readable, isNew]

theorem operationsOn_rendered {snapshot : Snapshot} {path : LooseText} {existing : Text}
    (readable : snapshot.isUnreadable path = false)
    (isThere : snapshot.text? path = some existing) {text : LooseText} {wanted : List Region}
    (isWanted : findRegions path.label text.shown = .ok wanted) :
    operationsOn snapshot path (.rendered text) =
      regionOperations path existing text wanted := by
  simp [operationsOn, fileOperations, readable, isThere, isWanted, Bind.bind, Except.bind,
    Except.toOption]

theorem operationsOn_rendered_conflict {snapshot : Snapshot} {path : LooseText}
    {existing : Text} (isThere : snapshot.text? path = some existing) {text : LooseText}
    {conflict : Conflict} (isWanted : findRegions path.label text.shown = .error conflict) :
    operationsOn snapshot path (.rendered text) = [] := by
  cases unreadable : snapshot.isUnreadable path <;>
    simp [operationsOn, fileOperations, unreadable, isThere, isWanted, Bind.bind, Except.bind,
      Except.toOption]

theorem operationsOn_document {snapshot : Snapshot} {path : LooseText} {existing : Text}
    (readable : snapshot.isUnreadable path = false)
    (isThere : snapshot.text? path = some existing) (content : Draft) :
    operationsOn snapshot path (.document content) =
      [.regenerate path content (!content.isHeldBy existing)] := by
  simp [operationsOn, documentOperations, readable, isThere]

/-- What is planned for a path: nothing, a new file, a document as a whole, or the
regions of a file that is there. -/
inductive PlannedFor (snapshot : Snapshot) (path : LooseText) :
    Candidate → List FileOperation → Prop
  | nothing (candidate : Candidate) : PlannedFor snapshot path candidate []
  | new (readable : snapshot.isUnreadable path = false) (isNew : snapshot.text? path = none)
      (candidate : Candidate) :
      PlannedFor snapshot path candidate
        [.create path (match candidate with
          | .rendered text => text.draft
          | .document content => content)]
  | document (readable : snapshot.isUnreadable path = false) {existing : Text}
      (isThere : snapshot.text? path = some existing) (content : Draft) :
      PlannedFor snapshot path (.document content)
        [.regenerate path content (!content.isHeldBy existing)]
  | regions (readable : snapshot.isUnreadable path = false) {existing : Text}
      (isThere : snapshot.text? path = some existing) {text : LooseText} {wanted : List Region}
      (isWanted : findRegions path.label text.shown = .ok wanted) :
      PlannedFor snapshot path (.rendered text) (regionOperations path existing text wanted)

theorem plannedFor_operationsOn (snapshot : Snapshot) (path : LooseText) (candidate : Candidate) :
    PlannedFor snapshot path candidate (operationsOn snapshot path candidate) := by
  cases readable : snapshot.isUnreadable path with
  | true =>
      rw [operationsOn_unreadable readable]
      exact .nothing candidate
  | false =>
      cases isThere : snapshot.text? path with
      | none =>
          rw [operationsOn_new readable isThere]
          exact .new readable isThere candidate
      | some existing =>
          cases candidate with
          | document content =>
              rw [operationsOn_document readable isThere]
              exact .document readable isThere content
          | rendered text =>
              cases isWanted : findRegions path.label text.shown with
              | error conflict =>
                  rw [operationsOn_rendered_conflict isThere isWanted]
                  exact .nothing _
              | ok wanted =>
                  rw [operationsOn_rendered readable isThere isWanted]
                  exact .regions readable isThere isWanted

/-- Regions of a file that is there change if the file has them and one of them
has another body. -/
theorem plannedDraft_regionOperations {snapshot : Snapshot} {path : LooseText}
    {existing : Text} (isThere : snapshot.text? path = some existing) (rendered : LooseText)
    (wanted : List Region) :
    let operations := regionOperations path existing rendered wanted
    plannedDraft snapshot path operations =
      if (Apply.patches operations).isEmpty then
        none
      else
        some ⟨patchedText path existing (patchTexts (Apply.patches operations)),
          (Apply.patches operations).all (·.2.whole)⟩ := by
  intro operations
  rw [plannedDraft, wholeDraft?_regionOperations, isThere]
  cases Apply.patches operations <;> simp

theorem mergedDraft_of_patches {snapshot : Snapshot} {path : LooseText} {existing : Text}
    (isThere : snapshot.text? path = some existing) {operations : List FileOperation}
    (noWhole : Apply.wholeDraft? operations = none) {draft : Draft}
    (made : Apply.patched path.label existing (Apply.patches operations) = .ok draft)
    (tree : FileTree) (here : Location) (root : Path) :
    Apply.mergedDraft tree here root snapshot path operations =
      .ok (if (Apply.patches operations).isEmpty then none else some draft) := by
  rw [Apply.mergedDraft, noWhole]
  generalize Apply.patches operations = patches at made ⊢
  cases patches with
  | nil => rfl
  | cons patch patches => simp [Apply.baseText, isThere, made, Bind.bind, Except.bind]

/-- Merging what is planned for a path never fails, and does not look at the
tree. -/
theorem mergedDraft_operationsOn (tree : FileTree) (here : Location) (root : Path)
    (snapshot : Snapshot) (path : LooseText) (candidate : Candidate) :
    Apply.mergedDraft tree here root snapshot path (operationsOn snapshot path candidate) =
      .ok (plannedDraft snapshot path (operationsOn snapshot path candidate)) := by
  have planned := plannedFor_operationsOn snapshot path candidate
  generalize operationsOn snapshot path candidate = operations at planned ⊢
  cases planned with
  | nothing => rfl
  | new => rfl
  | document => rfl
  | @regions _ existing isThere text wanted isWanted =>
      rw [plannedDraft_regionOperations isThere]
      refine mergedDraft_of_patches isThere (wholeDraft?_regionOperations path existing text wanted)
        ?_ tree here root
      rw [patches_regionOperations]
      cases found : findRegions path.label existing with
      | error conflict => simp [Apply.patched, patchedText, found]
      | ok present => exact patched_bodyPatches found isWanted

/-- What is written for a path: a new file, a document that its file does not hold, or a
file with patches in some of its regions. -/
inductive DraftFor (snapshot : Snapshot) (path : LooseText) : Candidate → Draft → Prop
  | new (readable : snapshot.isUnreadable path = false) (isNew : snapshot.text? path = none)
      (candidate : Candidate) :
      DraftFor snapshot path candidate
        (match candidate with
          | .rendered text => text.draft
          | .document content => content)
  | document (readable : snapshot.isUnreadable path = false) {existing : Text}
      (isThere : snapshot.text? path = some existing) {content : Draft}
      (notHeld : content.isHeldBy existing = false) :
      DraftFor snapshot path (.document content) content
  | regions (readable : snapshot.isUnreadable path = false) {existing : Text}
      (isThere : snapshot.text? path = some existing) {text : LooseText}
      {wanted present : List Region} (isWanted : findRegions path.label text.shown = .ok wanted)
      (found : findRegions path.label existing = .ok present)
      (somePatch : bodyPatches existing present text wanted ≠ []) :
      DraftFor snapshot path (.rendered text)
        ⟨patchedText path existing (patchTexts (bodyPatches existing present text wanted)),
          (bodyPatches existing present text wanted).all (·.2.whole)⟩

theorem draftFor_of_plannedDraft {snapshot : Snapshot} {path : LooseText} {candidate : Candidate}
    {draft : Draft}
    (isDraft : plannedDraft snapshot path (operationsOn snapshot path candidate) = some draft) :
    DraftFor snapshot path candidate draft := by
  have planned := plannedFor_operationsOn snapshot path candidate
  generalize operationsOn snapshot path candidate = operations at planned isDraft
  cases planned with
  | nothing => simp [plannedDraft, Apply.wholeDraft?, Apply.patches] at isDraft
  | new readable isNew =>
      obtain rfl := Option.some.inj isDraft
      exact .new readable isNew candidate
  | @document readable existing isThere content =>
      cases isHeld : content.isHeldBy existing with
      | false =>
          simp only [plannedDraft, Apply.wholeDraft?, FileOperation.regenerate, isHeld] at isDraft
          obtain rfl := Option.some.inj isDraft
          exact .document readable isThere isHeld
      | true => simp [plannedDraft, Apply.wholeDraft?, FileOperation.regenerate, isHeld] at isDraft
  | @regions readable existing isThere text wanted isWanted =>
      rw [plannedDraft_regionOperations isThere, patches_regionOperations] at isDraft
      cases found : findRegions path.label existing with
      | error conflict => simp [found] at isDraft
      | ok present =>
          simp only [found, Option.ite_none_left_eq_some, Option.some.injEq] at isDraft
          obtain ⟨somePatch, rfl⟩ := isDraft
          exact .regions readable isThere isWanted found (by simpa using somePatch)

end Plan

end ApiWorkshop
