import ApiWorkshop.Proofs.Merge.Planned
import ApiWorkshop.Proofs.Region.LineEnds
import Mathlib.Data.List.Nodup

/-!
# Merged files are settled

Planning once more for a file that holds what was planned for it finds nothing
to change.  For a merged text this is because each region that it shares with
the rendered text has the rendered body with the line end of the text as it is
in the end, whether that body was put in place or was there before.
-/

namespace ApiWorkshop

namespace Region

theorem fit_placeBodies (text : Text) (regions : List Region) {style : CommentStyle}
    {bodies : Entries String Text} (fit : Fit style bodies) {contents : List (String × Text)}
    (unmarked : ∀ content ∈ contents, Unmarked style content.2) :
    Fit style (placeBodies text regions bodies contents) := by
  induction contents generalizing bodies with
  | nil => exact fit
  | cons content contents ih =>
      refine ih (fit_put _ fit (endsLine_bodyFor _ content.2) ?_)
        fun other inRest => unmarked other (List.mem_cons_of_mem _ inRest)
      exact unmarked_bodyFor (unmarked content (List.mem_cons_self ..)) _

theorem isWhole_body {text : LooseText} (whole : text.isWhole = true) (region : Region) :
    LooseText.isWhole (region.body text) = true := by
  have allChars : ∀ c ∈ text, c.isChar = true := List.all_eq_true.mp whole
  refine List.all_eq_true.mpr fun c member => allChars c ?_
  exact List.mem_of_mem_take (List.mem_of_mem_drop member)

/-- In a text whose carriage returns are paired the lines that begin regions do
not end in one. -/
theorem Layout.opening_noReturn {style : CommentStyle} {text : Text} {lead : List Text}
    {blocks : List Block} (layout : Layout style text lead blocks) (paired : Text.Paired text)
    {block : Block} (inBlocks : block ∈ blocks) : block.opening.getLast? ≠ some '\r' := by
  obtain ⟨front, back, rfl⟩ := List.append_of_mem inBlocks
  have areLines := Text.areLines_lines text
  have whole : Text.Paired (Text.lines text).flatten := by rwa [Text.lines_flatten]
  have split : Text.lines text = (lead ++ front.flatMap Block.lines) ++ ([block.opening] ++
      (block.body ++ (block.closing :: block.gap ++ back.flatMap Block.lines))) := by
    rw [layout.lines_eq]
    simp [Block.lines]
  rw [split] at areLines whole
  have openingPaired :=
    (paired_of_areLines layout.areLines_block (paired_of_areLines areLines whole).2).1
  intro isReturn
  obtain ⟨front, isOpening⟩ := List.getLast?_eq_some_iff.mp isReturn
  have next := openingPaired front [] (by simp [isOpening])
  simp at next

/-- The regions of a text with new bodies are those of the text, with the new
bodies where there are some. -/
theorem body_replaceBodies {path : String} {text : Text} {regions later : List Region}
    (found : findRegions path text = .ok regions) (paired : Text.Paired text)
    {bodies : Entries String Text} (fit : Fit (CommentStyle.ofPath path) bodies)
    (foundLater : findRegions path (replaceBodies bodies text 0 regions) = .ok later)
    {region : Region} (member : region ∈ later) :
    ∃ original ∈ regions, region.name = original.name ∧
      region.body (replaceBodies bodies text 0 regions) =
        (Entries.get? region.name bodies).getD (original.body text) := by
  obtain ⟨lead, blocks, layout, rfl⟩ := findRegions_eq_ok_iff.mp found
  have someOpening := CommentStyle.opening_ofPath_ne_nil path
  have isLater := findRegions_eq_ok_iff.mpr ⟨lead, _, layout.replace someOpening fit, rfl⟩
  obtain rfl := Except.ok.inj (foundLater.symm.trans isLater)
  have sameBodies := layout.map_body_replaceBodies someOpening fit
    fun block inBlocks _ => layout.opening_noReturn paired inBlocks
  have inLater := List.mem_map_of_mem (f := fun region : Region => (region.name, region.body
    (replaceBodies bodies text 0 (Block.regions lead.flatten.length blocks)))) member
  rw [sameBodies] at inLater
  obtain ⟨original, isOriginal, same⟩ := List.mem_map.mp inLater
  obtain ⟨sameName, sameBody⟩ := Prod.mk.inj same
  exact ⟨original, isOriginal, sameName.symm, by rw [← sameBody, sameName]⟩

end Region

/-- A rendered text without carriage returns whose markers are in order and
whose bodies end their lines. -/
structure PlainRendered (path text : LooseText) : Prop where
  noReturn : '\r' ∉ text.shown
  bodies : ∃ wanted, findRegions path.label text.shown = .ok wanted ∧
    ∀ region ∈ wanted, ∀ c ∈ (region.body text.shown).getLast?, c = '\n'

theorem PlainRendered.plainBody {path text : LooseText} (plain : PlainRendered path text)
    {wanted : List Region} (isWanted : findRegions path.label text.shown = .ok wanted)
    {region : Region} (member : region ∈ wanted) : Region.PlainBody (region.body text.shown) := by
  obtain ⟨found, isFound, ends⟩ := plain.bodies
  obtain rfl := Except.ok.inj (isFound.symm.trans isWanted)
  refine ⟨fun inBody => plain.noReturn ?_, ends region member⟩
  exact List.mem_of_mem_take (List.mem_of_mem_drop inBody)

namespace Plan

theorem shown_body (rendered : LooseText) (region : Region) :
    (LooseText.draft (region.body rendered)).text = region.body rendered.shown := by
  simp [LooseText.draft, LooseText.shown, Region.body, List.map_drop, List.map_take]

/-- A region changes unless it has the body already. -/
theorem changesBody_eq_false_iff {existing : Text} {region : Region}
    (ordered : region.start ≤ region.stop) (body : Draft) :
    changesBody existing region body = false ↔ body.whole = true ∧
      Region.bodyFor (Region.lineEnd existing) body.text = region.body existing := by
  rw [← Region.replaceBody_eq_self_iff ordered, ← Region.splice]
  simp only [changesBody, Draft.isHeldBy, Bool.not_eq_false', Bool.and_eq_true,
    decide_eq_true_eq]
  exact and_congr_right fun _ => eq_comm

theorem isPatched_eq_false_iff {existing : Text} {present : List Region} {rendered : LooseText}
    {wanted : Region} (distinct : (present.map Region.name).Nodup)
    (ordered : ∀ region ∈ present, region.start ≤ region.stop) :
    isPatched existing present rendered wanted = false ↔
      ∀ region ∈ present, region.name = wanted.name →
        (LooseText.draft (wanted.body rendered)).whole = true ∧
          Region.bodyFor (Region.lineEnd existing) (wanted.body rendered.shown) =
            region.body existing := by
  rw [isPatched, Option.any_eq_false]
  constructor
  · intro unchanged region member sameName
    cases found : present.find? (·.name = wanted.name) with
    | none =>
        have different := List.find?_eq_none.mp found region member
        simp [sameName] at different
    | some shared =>
        have sharedName : shared.name = wanted.name := by simpa using List.find?_some found
        obtain rfl := List.inj_on_of_nodup_map distinct member (List.mem_of_find?_eq_some found)
          (sameName.trans sharedName.symm)
        have kept := unchanged region found
        rwa [changesBody_eq_false_iff (ordered region member), shown_body] at kept
  · intro same region found
    have member := List.mem_of_find?_eq_some found
    have sameName : region.name = wanted.name := by simpa using List.find?_some found
    rw [changesBody_eq_false_iff (ordered region member), shown_body]
    exact same region member sameName

/-! ## The planned bodies of a file -/

section BodyPatches

variable {path : LooseText} {existing : Text} {rendered : LooseText} {present wanted : List Region}

theorem exists_of_mem_patchTexts {content : String × Text}
    (member : content ∈ patchTexts (bodyPatches existing present rendered wanted)) :
    ∃ source ∈ wanted, isPatched existing present rendered source = true ∧
      content = (source.name, source.body rendered.shown) := by
  obtain ⟨patch, inPatches, rfl⟩ := List.mem_map.mp member
  obtain ⟨source, isKept, rfl⟩ := List.mem_map.mp inPatches
  obtain ⟨inWanted, changes⟩ := List.mem_filter.mp isKept
  refine ⟨source, inWanted, changes, ?_⟩
  rw [shown_body]

theorem plainBody_of_mem_patchTexts (plain : PlainRendered path rendered)
    (isWanted : findRegions path.label rendered.shown = .ok wanted) :
    ∀ content ∈ patchTexts (bodyPatches existing present rendered wanted),
      Region.PlainBody content.2 := by
  intro content member
  obtain ⟨source, inSource, -, rfl⟩ := exists_of_mem_patchTexts member
  exact plain.plainBody isWanted inSource

theorem fit_bodyPatches (isWanted : findRegions path.label rendered.shown = .ok wanted) :
    Region.Fit (CommentStyle.ofPath path.label)
      (Region.placeBodies existing present []
        (patchTexts (bodyPatches existing present rendered wanted))) := by
  refine Region.fit_placeBodies _ _ (Region.fit_nil _) fun content member => ?_
  obtain ⟨source, inSource, -, rfl⟩ := exists_of_mem_patchTexts member
  exact Region.unmarked_body isWanted inSource

/-- A region that changes has the body that it became when its turn came. -/
theorem get?_placeBodies_of_isPatched
    (isWanted : findRegions path.label rendered.shown = .ok wanted) {region : Region}
    (inWanted : region ∈ wanted) (changes : isPatched existing present rendered region = true) :
    (region.name, LooseText.draft (region.body rendered)) ∈
        bodyPatches existing present rendered wanted ∧
      ∃ before after,
        patchTexts (bodyPatches existing present rendered wanted) = before ++ after ∧
        Entries.get? region.name (Region.placeBodies existing present []
            (patchTexts (bodyPatches existing present rendered wanted))) =
          some (Region.bodyFor (Region.lineEnd (Region.replaceBodies
            (Region.placeBodies existing present [] before) existing 0 present))
              (region.body rendered.shown)) := by
  have member : (region.name, LooseText.draft (region.body rendered)) ∈
      bodyPatches existing present rendered wanted :=
    List.mem_map.mpr ⟨region, List.mem_filter.mpr ⟨inWanted, changes⟩, rfl⟩
  have inTexts : (region.name, region.body rendered.shown) ∈
      patchTexts (bodyPatches existing present rendered wanted) :=
    List.mem_map.mpr ⟨_, member, by rw [shown_body]⟩
  have distinct : ((patchTexts (bodyPatches existing present rendered wanted)).map
      Prod.fst).Nodup := by
    simpa [patchTexts, Function.comp_def] using nodup_bodyPatches existing present isWanted
  obtain ⟨before, after, split⟩ := List.append_of_mem inTexts
  rw [split] at distinct
  refine ⟨member, before, _, split, ?_⟩
  rw [split]
  exact Region.get?_placeBodies existing present distinct []

/-- A region that does not change has no planned body. -/
theorem notMem_patchTexts (isWanted : findRegions path.label rendered.shown = .ok wanted)
    {region : Region} (inWanted : region ∈ wanted)
    (changes : isPatched existing present rendered region = false) :
    region.name ∉ (patchTexts (bodyPatches existing present rendered wanted)).map Prod.fst := by
  intro inNames
  obtain ⟨content, inTexts, sameName⟩ := List.mem_map.mp inNames
  obtain ⟨source, inSource, sourceChanges, rfl⟩ := exists_of_mem_patchTexts inTexts
  obtain rfl := List.inj_on_of_nodup_map (Region.names_nodup isWanted) inSource inWanted sameName
  rw [changes] at sourceChanges
  contradiction

/-- The body that a shared region has in the end is the rendered one, made for the
line end that the text had at some moment of the merge. -/
theorem exists_body_patchedText (found : findRegions path.label existing = .ok present)
    (isWanted : findRegions path.label rendered.shown = .ok wanted)
    (paired : Text.Paired existing)
    (whole : (bodyPatches existing present rendered wanted).all (·.2.whole) = true)
    {later : List Region}
    (foundLater : findRegions path.label (Region.replaceBodies (Region.placeBodies existing present
      [] (patchTexts (bodyPatches existing present rendered wanted))) existing 0 present) =
        .ok later)
    {region shared : Region} (inWanted : region ∈ wanted) (inLater : shared ∈ later)
    (sameName : shared.name = region.name) :
    (LooseText.draft (region.body rendered)).whole = true ∧
      ∃ before after,
        patchTexts (bodyPatches existing present rendered wanted) = before ++ after ∧
        shared.body (Region.replaceBodies (Region.placeBodies existing present []
            (patchTexts (bodyPatches existing present rendered wanted))) existing 0 present) =
          Region.bodyFor (Region.lineEnd (Region.replaceBodies
            (Region.placeBodies existing present [] before) existing 0 present))
              (region.body rendered.shown) := by
  obtain ⟨original, isOriginal, originalName, isBody⟩ :=
    Region.body_replaceBodies found paired (fit_bodyPatches isWanted) foundLater inLater
  rw [isBody, sameName]
  cases changes : isPatched existing present rendered region with
  | true =>
      obtain ⟨member, before, after, split, isFound⟩ :=
        get?_placeBodies_of_isPatched isWanted inWanted changes
      refine ⟨List.all_eq_true.mp whole _ member, before, after, split, ?_⟩
      rw [isFound, Option.getD_some]
  | false =>
      obtain ⟨isWhole, sameBody⟩ := (isPatched_eq_false_iff (Region.names_nodup found)
        fun other => Region.ordered_of_mem found).mp changes original isOriginal
          (originalName.symm.trans sameName)
      refine ⟨isWhole, [], _, rfl, ?_⟩
      rw [Region.get?_placeBodies_of_notMem (notMem_patchTexts isWanted inWanted changes)]
      dsimp only [Region.placeBodies]
      rw [Region.replaceBodies_nil found, sameBody]
      rfl

/-- A text with all planned bodies in place has no region left to change. -/
theorem isPatched_patchedText (found : findRegions path.label existing = .ok present)
    (isWanted : findRegions path.label rendered.shown = .ok wanted)
    (paired : Text.Paired existing) (plain : PlainRendered path rendered)
    (whole : (bodyPatches existing present rendered wanted).all (·.2.whole) = true)
    {later : List Region} (foundLater : findRegions path.label (patchedText path existing
      (patchTexts (bodyPatches existing present rendered wanted))) = .ok later)
    {region : Region} (inWanted : region ∈ wanted) :
    isPatched (patchedText path existing
      (patchTexts (bodyPatches existing present rendered wanted))) later rendered region =
        false := by
  have plainPatches : ∀ content ∈ patchTexts (bodyPatches existing present rendered wanted),
      Region.PlainBody content.2 := plainBody_of_mem_patchTexts plain isWanted
  rw [patchedText, found] at foundLater ⊢
  dsimp only at foundLater ⊢
  rw [isPatched_eq_false_iff (Region.names_nodup foundLater)
    fun shared => Region.ordered_of_mem foundLater]
  intro shared inLater sameName
  obtain ⟨isWhole, before, after, split, isBody⟩ :=
    exists_body_patchedText found isWanted paired whole foundLater inWanted inLater sameName
  have isPart := Region.isInfix_body (Region.replaceBodies (Region.placeBodies existing present []
    (patchTexts (bodyPatches existing present rendered wanted))) existing 0 present) shared
  rw [isBody] at isPart ⊢
  rw [split] at plainPatches isPart ⊢
  exact ⟨isWhole, Region.bodyFor_placeBodies found paired plainPatches
    (plain.plainBody isWanted inWanted) isPart⟩

end BodyPatches

/-! ## Candidates that were written -/

theorem bodyPatches_eq_nil_iff {existing : Text} {present : List Region} {rendered : LooseText}
    {wanted : List Region} : bodyPatches existing present rendered wanted = [] ↔
      ∀ region ∈ wanted, isPatched existing present rendered region = false := by
  simp [bodyPatches, List.filter_eq_nil_iff]

/-- A rendered text has no region to change in itself. -/
theorem isPatched_self {path text : LooseText} (plain : PlainRendered path text)
    (whole : text.isWhole = true) {wanted : List Region}
    (isWanted : findRegions path.label text.shown = .ok wanted) {region : Region}
    (inWanted : region ∈ wanted) : isPatched text.shown wanted text region = false := by
  rw [isPatched_eq_false_iff (Region.names_nodup isWanted)
    fun shared => Region.ordered_of_mem isWanted]
  intro shared isShared sameName
  obtain rfl := List.inj_on_of_nodup_map (Region.names_nodup isWanted) isShared inWanted sameName
  constructor
  · exact Region.isWhole_body whole _
  · rw [Region.lineEnd_of_noReturn plain.noReturn,
      Region.bodyFor_feed (plain.plainBody isWanted inWanted)]

theorem isUnreadable_of_plannedDraft {snapshot : Snapshot} {path : LooseText}
    {candidate : Candidate} {draft : Draft}
    (isDraft : plannedDraft snapshot path (operationsOn snapshot path candidate) = some draft) :
    snapshot.isUnreadable path = false := by
  cases draftFor_of_plannedDraft isDraft with
  | new readable | document readable | regions readable => exact readable

/-- A document is planned as a whole. -/
theorem eq_of_plannedDraft_document {snapshot : Snapshot} {path : LooseText}
    {content draft : Draft}
    (isDraft : plannedDraft snapshot path (operationsOn snapshot path (.document content)) =
      some draft) : draft = content := by
  cases draftFor_of_plannedDraft isDraft with
  | new | document => rfl

/-- Nothing is planned for a file that holds what was planned for it before. -/
theorem plannedDraft_of_held {snapshot later : Snapshot} {path : LooseText}
    {candidate : Candidate} {draft : Draft}
    (isDraft : plannedDraft snapshot path (operationsOn snapshot path candidate) = some draft)
    (whole : draft.whole = true)
    (paired : ∀ existing, snapshot.text? path = some existing → Text.Paired existing)
    (plain : ∀ text, candidate = .rendered text → PlainRendered path text)
    (readable : later.isUnreadable path = false) (isHeld : later.text? path = some draft.text) :
    plannedDraft later path (operationsOn later path candidate) = none := by
  cases candidate with
  | document content =>
      obtain rfl := eq_of_plannedDraft_document isDraft
      rw [operationsOn_document readable isHeld]
      simp [plannedDraft, Apply.wholeDraft?, FileOperation.regenerate, Draft.isHeldBy, whole]
  | rendered text =>
      have isPlain := plain text rfl
      obtain ⟨wanted, isWanted, -⟩ := isPlain.bodies
      suffices settled : ∀ present, findRegions path.label draft.text = .ok present →
          ∀ region ∈ wanted, isPatched draft.text present text region = false by
        rw [operationsOn_rendered readable isHeld isWanted, plannedDraft_regionOperations isHeld,
          patches_regionOperations]
        cases found : findRegions path.label draft.text with
        | error conflict => simp
        | ok present => simp [bodyPatches_eq_nil_iff.mpr (settled present found)]
      intro present found region inWanted
      cases draftFor_of_plannedDraft isDraft with
      | new =>
          obtain rfl := Except.ok.inj (isWanted.symm.trans found)
          exact isPatched_self isPlain whole isWanted inWanted
      | @regions _ existing isThere _ _ before isPlanned foundBefore _ =>
          obtain rfl := Except.ok.inj (isWanted.symm.trans isPlanned)
          exact isPatched_patchedText foundBefore isWanted (paired existing isThere) isPlain whole
            found inWanted

/-- What is planned for a path depends on what the snapshot has of it. -/
theorem plannedDraft_congr {snapshot later : Snapshot} {path : LooseText}
    (sameText : later.text? path = snapshot.text? path)
    (sameFailure : later.isUnreadable path = snapshot.isUnreadable path)
    (candidate : Candidate) :
    plannedDraft later path (operationsOn later path candidate) =
      plannedDraft snapshot path (operationsOn snapshot path candidate) := by
  have sameOperations : operationsOn later path candidate =
      operationsOn snapshot path candidate := by
    cases candidate <;>
      simp only [operationsOn, fileOperations, documentOperations, sameText, sameFailure]
  rw [sameOperations, plannedDraft, plannedDraft, sameText]

end Plan

end ApiWorkshop
