import ApiWorkshop.Proofs.Merge.Settled

/-!
# Changes are truthful

A plan writes a file exactly when one of its operations says that the file is new
or that it changes.  What it writes then differs from what the file holds, also
where several patches, each planned for itself, come together in one file.
-/

namespace ApiWorkshop

namespace Plan

theorem change_of_mem_regionOperations {path : LooseText} {existing : Text}
    {rendered : LooseText} {wanted : List Region} {operation : FileOperation}
    (member : operation ∈ regionOperations path existing rendered wanted) :
    operation.change = .patch ∨ operation.change = .skip := by
  cases onRegions_of_mem member with
  | withoutRegions | disorder | missing => exact .inr rfl
  | patched => exact .inl rfl

theorem patches_ne_nil_iff (operations : List FileOperation) :
    (Apply.patches operations).isEmpty = false ↔
      ∃ operation ∈ operations, operation.change = .patch ∧ operation.changed = true := by
  rw [List.isEmpty_eq_false_iff, Apply.patches, Ne, List.map_eq_nil_iff, List.filter_eq_nil_iff]
  simp

/-- Something is written for a path when one of its operations says that its
file is new or changes. -/
theorem isSome_plannedDraft_iff {snapshot : Snapshot} {path : LooseText}
    {candidate : Candidate} :
    (plannedDraft snapshot path (operationsOn snapshot path candidate)).isSome = true ↔
      ∃ operation ∈ operationsOn snapshot path candidate,
        operation.change = .create ∨ (operation.change ≠ .skip ∧ operation.changed = true) := by
  have planned := plannedFor_operationsOn snapshot path candidate
  generalize operationsOn snapshot path candidate = operations at planned ⊢
  cases planned with
  | nothing => simp [plannedDraft, Apply.wholeDraft?, Apply.patches]
  | new => simp [plannedDraft, Apply.wholeDraft?, FileOperation.create]
  | @document _ existing isThere content =>
      cases isHeld : content.isHeldBy existing <;>
        simp [plannedDraft, Apply.wholeDraft?, FileOperation.regenerate]
  | regions _ isThere _ =>
      rw [plannedDraft_regionOperations isThere]
      have someDraft (draft : Draft) (noPatches : Bool) :
          (if noPatches then none else some draft).isSome = true ↔ noPatches = false := by
        cases noPatches <;> simp
      rw [someDraft, patches_ne_nil_iff]
      refine exists_congr fun operation => and_congr_right fun member => ?_
      rcases change_of_mem_regionOperations member with isPatch | isSkip
      · simp [isPatch]
      · simp [isSkip]

/-- Patches change the text: the first one was planned against the text as it
is, so if all bodies were there already it would not have been planned. -/
theorem patchedText_ne {path : LooseText} {existing : Text} {rendered : LooseText}
    {present wanted : List Region} (found : findRegions path.label existing = .ok present)
    (isWanted : findRegions path.label rendered.shown = .ok wanted)
    (whole : (bodyPatches existing present rendered wanted).all (·.2.whole) = true)
    (somePatch : bodyPatches existing present rendered wanted ≠ []) :
    patchedText path existing (patchTexts (bodyPatches existing present rendered wanted)) ≠
      existing := by
  have distinct := nodup_bodyPatches existing present isWanted
  have unmarked : ∀ content ∈ patchTexts (bodyPatches existing present rendered wanted),
      Region.Unmarked (CommentStyle.ofPath path.label) content.2 := by
    intro content member
    obtain ⟨patch, inPatches, rfl⟩ := List.mem_map.mp member
    obtain ⟨source, inSource, -, rfl⟩ := mem_bodyPatches inPatches
    rw [shown_body]
    exact Region.unmarked_body isWanted inSource
  obtain ⟨patch, rest, isFirst⟩ := List.exists_cons_of_ne_nil somePatch
  have member : patch ∈ bodyPatches existing present rendered wanted := by simp [isFirst]
  obtain ⟨region, isKept, rfl⟩ := List.mem_map.mp member
  obtain ⟨inWanted, changes⟩ := List.mem_filter.mp isKept
  have isWhole := List.all_eq_true.mp whole _ member
  intro unchanged
  rw [patchedText, found, isFirst] at unchanged
  rw [isFirst] at distinct unmarked
  have distinctTexts : (([] ++ (region.name, region.body rendered.shown) ::
      patchTexts rest).map Prod.fst).Nodup := by
    simpa [patchTexts, Function.comp_def] using distinct
  have isPlaced := Region.get?_placeBodies existing present distinctTexts []
  dsimp only [Region.placeBodies] at isPlaced
  rw [Region.replaceBodies_nil found] at isPlaced
  have fit := Region.fit_placeBodies existing present
    (Region.fit_nil (CommentStyle.ofPath path.label)) unmarked
  have texts : patchTexts ((region.name, LooseText.draft (region.body rendered)) :: rest) =
      [] ++ (region.name, region.body rendered.shown) :: patchTexts rest := by
    simp [patchTexts, shown_body]
  rw [texts] at unchanged fit
  have kept : isPatched existing present rendered region = false := by
    rw [isPatched_eq_false_iff (Region.names_nodup found)
      fun shared => Region.ordered_of_mem found]
    intro shared isShared sameName
    obtain ⟨lead, blocks, layout, rfl⟩ := Region.findRegions_eq_ok_iff.mp found
    obtain ⟨block, inBlocks, blockName, -, isBody⟩ := layout.exists_block isShared
    rw [isBody]
    exact ⟨isWhole, layout.body_eq_of_replaceBodies_eq
      (CommentStyle.opening_ofPath_ne_nil path.label) fit unchanged inBlocks
      (by rw [← blockName, sameName, isPlaced])⟩
  rw [kept] at changes
  contradiction

/-- What is planned for a file that is there differs from what it holds. -/
theorem text_ne_of_plannedDraft {snapshot : Snapshot} {path : LooseText} {existing : Text}
    (isThere : snapshot.text? path = some existing) {candidate : Candidate} {draft : Draft}
    (isDraft : plannedDraft snapshot path (operationsOn snapshot path candidate) = some draft)
    (whole : draft.whole = true) : draft.text ≠ existing := by
  cases draftFor_of_plannedDraft isDraft with
  | new _ isNew =>
      rw [isThere] at isNew
      contradiction
  | document _ isOther notHeld =>
      obtain rfl := Option.some.inj (isThere.symm.trans isOther)
      rintro rfl
      simp [Draft.isHeldBy, whole] at notHeld
  | regions _ isOther isWanted found somePatch =>
      obtain rfl := Option.some.inj (isThere.symm.trans isOther)
      exact patchedText_ne found isWanted whole somePatch

end Plan

end ApiWorkshop
