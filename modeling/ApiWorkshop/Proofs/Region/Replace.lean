import ApiWorkshop.Proofs.Region.Fill

/-!
# Replacing the bodies of regions

A text with other bodies in some of its regions is laid out in the same blocks,
so that its regions are found again.  Splicing one region after the other
therefore comes to the same as putting all bodies in place at once, and a text
that stays the same under new bodies had these bodies before.
-/

namespace ApiWorkshop

namespace Region

/-- What a text holds from an offset on, with bodies in place of those of the
regions that they are named for.  Everything else is kept. -/
def replaceBodies (bodies : Entries String Text) (text : Text) : Nat → List Region → Text
  | offset, [] => text.drop offset
  | offset, region :: regions =>
      (text.take region.start).drop offset ++
        ((Entries.get? region.name bodies).getD (region.body text) ++
          replaceBodies bodies text region.stop regions)

/-- The bodies that contents become when they are put into a text one after the
other.  Each takes over the line end that the text has by then. -/
def placeBodies (text : Text) (regions : List Region) :
    Entries String Text → List (String × Text) → Entries String Text
  | bodies, [] => bodies
  | bodies, (name, content) :: contents =>
      let current := replaceBodies bodies text 0 regions
      placeBodies text regions (Entries.put name (bodyFor (lineEnd current) content) bodies)
        contents

/-! ## Texts with new bodies -/

/-- The body of the first region is that of the first block. -/
theorem body_block (before after : Text) (block : Block) :
    Region.body (before ++ (block.lines.flatten ++ after))
        ⟨block.name, before.length + block.opening.length,
          before.length + block.opening.length + block.body.flatten.length⟩ =
      block.body.flatten := by
  have shape : before ++ (block.lines.flatten ++ after) =
      ((before ++ block.opening) ++ block.body.flatten) ++
        (block.closing ++ block.gap.flatten ++ after) := by
    simp [Block.lines]
  rw [Region.body, shape, List.take_left' (by simp; omega), List.drop_left' (by simp)]

/-- Putting bodies in place fills the blocks behind the offset. -/
theorem replaceBodies_blocks (bodies : Entries String Text) (before : Text)
    (blocks : List Block) (offset : Nat) (inside : offset ≤ before.length) :
    replaceBodies bodies (before ++ (blocks.flatMap Block.lines).flatten) offset
        (Block.regions before.length blocks) =
      before.drop offset ++ ((blocks.map (Block.fill bodies)).flatMap Block.lines).flatten := by
  induction blocks generalizing before offset with
  | nil => simp [replaceBodies, Block.regions]
  | cons block blocks ih =>
      have rest := ih (before ++ block.lines.flatten)
        (before.length + block.opening.length + block.body.flatten.length)
        (by simp [Block.lines]; omega)
      have front : (before ++ (block.lines.flatten ++ (blocks.flatMap Block.lines).flatten)).take
          (before.length + block.opening.length) = before ++ block.opening := by
        rw [Block.lines, List.cons_append, List.flatten_cons, List.append_assoc block.opening,
          ← List.append_assoc before, List.take_left' (by simp)]
      have back : (before ++ block.lines.flatten).drop
          (before.length + block.opening.length + block.body.flatten.length) =
            block.closing ++ block.gap.flatten := by
        have shape : before ++ block.lines.flatten =
            ((before ++ block.opening) ++ block.body.flatten) ++
              (block.closing ++ block.gap.flatten) := by
          simp [Block.lines]
        rw [shape, List.drop_left' (by simp; omega)]
      rw [List.append_assoc, List.length_append, back] at rest
      simp only [List.flatMap_cons, List.flatten_append, Block.regions, replaceBodies, List.map_cons]
      rw [front, body_block, rest, List.drop_append_of_le_length inside,
        Block.fill_lines_flatten]
      simp

theorem Layout.text_eq {style : CommentStyle} {text : Text} {lead : List Text}
    {blocks : List Block} (layout : Layout style text lead blocks) :
    text = lead.flatten ++ (blocks.flatMap Block.lines).flatten := by
  rw [← List.flatten_append, ← layout.lines_eq, Text.lines_flatten]

theorem Layout.replaceBodies_eq {style : CommentStyle} {text : Text} {lead : List Text}
    {blocks : List Block} (layout : Layout style text lead blocks)
    (bodies : Entries String Text) :
    replaceBodies bodies text 0 (Block.regions lead.flatten.length blocks) =
      lead.flatten ++ ((blocks.map (Block.fill bodies)).flatMap Block.lines).flatten := by
  have replaced := replaceBodies_blocks bodies lead.flatten blocks 0 (Nat.zero_le _)
  rwa [← layout.text_eq, List.drop_zero] at replaced

/-- A text with other bodies is laid out in the blocks with these bodies. -/
theorem Layout.replace {style : CommentStyle} (someOpening : style.opening ≠ []) {text : Text}
    {lead : List Text} {blocks : List Block} (layout : Layout style text lead blocks)
    {bodies : Entries String Text} (fit : Fit style bodies) :
    Layout style (replaceBodies bodies text 0 (Block.regions lead.flatten.length blocks)) lead
      (blocks.map (Block.fill bodies)) := by
  have areLines : Text.AreLines (lead ++ blocks.flatMap Block.lines) := by
    rw [← layout.lines_eq]
    exact Text.areLines_lines text
  obtain ⟨leadLines, blockLines, leadEnds, -⟩ := Text.areLines_of_append areLines
  have marked : ∀ block ∈ blocks.map (Block.fill bodies), block.IsMarked style := by
    intro block member
    obtain ⟨source, inBlocks, rfl⟩ := List.mem_map.mp member
    exact Block.isMarked_fill someOpening fit (layout.marked source inBlocks)
  have filled := Block.areLines_map_fill someOpening fit layout.marked blockLines
  refine ⟨?_, layout.lead_unmarked, marked, ?_⟩
  · rw [layout.replaceBodies_eq, ← List.flatten_append]
    refine Text.areLines_append leadLines filled (fun someFilled => leadEnds ?_)
      (fun joins => Block.head?_blocks_ne_feed someOpening marked filled joins.2)
    cases blocks with
    | nil => simp at someFilled
    | cons block blocks => simp [Block.lines]
  · rw [List.map_map, Block.name_comp_fill]
    exact layout.nodup

/-! ## One region after the other -/

theorem find?_regions {before after : List Block} {block : Block} (offset : Nat)
    (nodup : ((before ++ block :: after).map Block.name).Nodup) :
    (Block.regions offset (before ++ block :: after)).find? (·.name = block.name) =
      some ⟨block.name,
        offset + (before.flatMap Block.lines).flatten.length + block.opening.length,
        offset + (before.flatMap Block.lines).flatten.length + block.opening.length +
          block.body.flatten.length⟩ := by
  have others : ∀ region ∈ Block.regions offset before, region.name ≠ block.name := by
    intro region member sameName
    rw [List.map_append, List.map_cons] at nodup
    have inNames := List.mem_map_of_mem (f := Region.name) member
    rw [Block.map_name_regions] at inNames
    exact (List.nodup_append.mp nodup).2.2 region.name inNames block.name (by simp) sameName
  rw [Block.regions_append, List.find?_append, List.find?_eq_none.mpr (by simpa using others)]
  simp [Block.regions]

theorem names_ne_of_nodup {before after : List Block} {block : Block}
    (nodup : ((before ++ block :: after).map Block.name).Nodup) :
    (∀ other ∈ before, other.name ≠ block.name) ∧ ∀ other ∈ after, other.name ≠ block.name := by
  rw [List.map_append, List.map_cons] at nodup
  obtain ⟨-, rest, apart⟩ := List.nodup_append.mp nodup
  constructor
  · intro other member
    exact apart other.name (List.mem_map_of_mem member) block.name (by simp)
  · intro other member sameName
    exact (List.nodup_cons.mp rest).1 (sameName ▸ List.mem_map_of_mem member)

/-- Splicing a region of a text that has some bodies replaced already puts one
more body in place. -/
theorem spliceRegion_replaceBodies {path : String} {text : Text} {lead : List Text}
    {blocks : List Block} (layout : Layout (CommentStyle.ofPath path) text lead blocks)
    {bodies : Entries String Text} (fit : Fit (CommentStyle.ofPath path) bodies) {name : String}
    (isBlock : name ∈ blocks.map Block.name) (isNew : Entries.get? name bodies = none)
    (content : Text) :
    let regions := Block.regions lead.flatten.length blocks
    let current := replaceBodies bodies text 0 regions
    spliceRegion path current name content =
      .ok (replaceBodies (Entries.put name (bodyFor (lineEnd current) content) bodies) text 0
        regions) := by
  intro regions current
  obtain ⟨block, inBlocks, rfl⟩ := List.mem_map.mp isBlock
  obtain ⟨before, after, rfl⟩ := List.append_of_mem inBlocks
  have filled := layout.replace (CommentStyle.opening_ofPath_ne_nil path) fit
  have found := findRegions_eq_ok_iff.mpr ⟨lead, _, filled, rfl⟩
  have mapped : (before ++ block :: after).map (Block.fill bodies) =
      before.map (Block.fill bodies) ++ block :: after.map (Block.fill bodies) := by
    simp [Block.fill_of_none isNew]
  have names := filled.nodup
  rw [mapped] at found names
  have located := find?_regions lead.flatten.length names
  rw [spliceRegion, found]
  simp only [Bind.bind, Except.bind]
  rw [located]
  generalize isBody : bodyFor (lineEnd current) content = body
  have sameOthers : ∀ others : List Block, (∀ other ∈ others, other.name ≠ block.name) →
      others.map (Block.fill (Entries.put block.name body bodies)) =
        others.map (Block.fill bodies) := by
    intro others different
    refine List.map_congr_left fun other member => Block.fill_congr ?_
    exact Entries.get?_put_of_ne (different other member) body bodies
  obtain ⟨beforeDifferent, afterDifferent⟩ := names_ne_of_nodup layout.nodup
  have currentEq : current =
      (lead.flatten ++ ((before.map (Block.fill bodies)).flatMap Block.lines).flatten ++
          block.opening) ++
        (block.body.flatten ++ (block.closing ++ (block.gap.flatten ++
          ((after.map (Block.fill bodies)).flatMap Block.lines).flatten))) := by
    rw [show current = _ from layout.replaceBodies_eq bodies, mapped]
    simp [Block.lines]
  rw [layout.replaceBodies_eq, List.map_append, List.map_cons, sameOthers before beforeDifferent,
    sameOthers after afterDifferent, List.flatMap_append, List.flatten_append, List.flatMap_cons,
    List.flatten_append, Block.fill_lines_flatten, Entries.get?_put_self]
  simp only [splice, isBody, replaceBody]
  rw [currentEq, List.take_left' (by simp; omega),
    ← List.append_assoc _ block.body.flatten, List.drop_left' (by simp; omega)]
  simp

/-! ## The bodies put in place -/

theorem get?_placeBodies_of_notMem {text : Text} {regions : List Region} {name : String}
    {contents : List (String × Text)} (isNew : name ∉ contents.map Prod.fst)
    (bodies : Entries String Text) :
    Entries.get? name (placeBodies text regions bodies contents) = Entries.get? name bodies := by
  induction contents generalizing bodies with
  | nil => rfl
  | cons content contents ih =>
      simp only [List.map_cons, List.mem_cons, not_or] at isNew
      rw [placeBodies, ih isNew.2, Entries.get?_put_of_ne isNew.1]

/-- Each content is in place as the body that it became when its turn came. -/
theorem get?_placeBodies (text : Text) (regions : List Region) {name : String} {content : Text}
    {before after : List (String × Text)}
    (distinct : ((before ++ (name, content) :: after).map Prod.fst).Nodup)
    (bodies : Entries String Text) :
    Entries.get? name (placeBodies text regions bodies (before ++ (name, content) :: after)) =
      some (bodyFor
        (lineEnd (replaceBodies (placeBodies text regions bodies before) text 0 regions))
        content) := by
  induction before generalizing bodies with
  | nil =>
      obtain ⟨isNew, -⟩ := List.nodup_cons.mp distinct
      exact (get?_placeBodies_of_notMem isNew _).trans (Entries.get?_put_self ..)
  | cons first before ih =>
      obtain ⟨-, restDistinct⟩ := List.nodup_cons.mp distinct
      rw [List.cons_append, placeBodies, ih restDistinct]
      rfl

/-! ## Texts that keep their bodies -/

theorem Layout.replaceBodies_nil {style : CommentStyle} {text : Text} {lead : List Text}
    {blocks : List Block} (layout : Layout style text lead blocks) :
    replaceBodies [] text 0 (Block.regions lead.flatten.length blocks) = text := by
  have unfilled : blocks.map (Block.fill []) = blocks :=
    List.map_id'' (fun block => Block.fill_of_none rfl) blocks
  rw [layout.replaceBodies_eq, unfilled, ← layout.text_eq]

/-- The unmarked lines before a marker line are determined. -/
theorem unmarked_append_inj {style : CommentStyle} {first second firstRest secondRest : List Text}
    {firstLine secondLine : Text} (firstUnmarked : UnmarkedLines style first)
    (secondUnmarked : UnmarkedLines style second)
    (firstMarker : markerOf? style firstLine ≠ none)
    (secondMarker : markerOf? style secondLine ≠ none)
    (same : first ++ firstLine :: firstRest = second ++ secondLine :: secondRest) :
    first = second ∧ firstRest = secondRest := by
  induction first generalizing second with
  | nil =>
      cases second with
      | nil => exact ⟨rfl, (List.cons.inj same).2⟩
      | cons line second =>
          obtain ⟨rfl, -⟩ := List.cons.inj same
          exact absurd (secondUnmarked firstLine (by simp)) firstMarker
  | cons line first ih =>
      cases second with
      | nil =>
          obtain ⟨rfl, -⟩ := List.cons.inj same
          exact absurd (firstUnmarked line (by simp)) secondMarker
      | cons other second =>
          obtain ⟨rfl, sameRest⟩ := List.cons.inj same
          obtain ⟨rfl, rfl⟩ := ih (fun next member => firstUnmarked next (by simp [member]))
            (fun next member => secondUnmarked next (by simp [member])) sameRest
          exact ⟨rfl, rfl⟩

theorem body_eq_of_fill_lines_eq {style : CommentStyle} (someOpening : style.opening ≠ [])
    {bodies : Entries String Text} (fit : Fit style bodies) {blocks : List Block}
    (marked : ∀ block ∈ blocks, block.IsMarked style)
    (same : (blocks.map (Block.fill bodies)).flatMap Block.lines = blocks.flatMap Block.lines)
    {block : Block} (inBlocks : block ∈ blocks) {body : Text}
    (isBody : Entries.get? block.name bodies = some body) : body = block.body.flatten := by
  induction blocks with
  | nil => simp at inBlocks
  | cons first blocks ih =>
      have isMarked := marked first (by simp)
      have isFilled := Block.isMarked_fill someOpening fit isMarked
      simp only [List.map_cons, List.flatMap_cons, Block.lines, List.cons_append,
        List.append_assoc, List.cons.injEq, Block.fill_gap] at same
      obtain ⟨sameOpening, sameRest⟩ := same
      obtain ⟨sameBody, sameTail⟩ := unmarked_append_inj isFilled.body_unmarked
        isMarked.body_unmarked (by simp [isMarked.closing_marker])
        (by simp [isMarked.closing_marker]) sameRest
      rcases List.mem_cons.mp inBlocks with rfl | inRest
      · have front := Block.fill_opening_body bodies block
        rw [sameOpening, sameBody, isBody, Option.getD_some] at front
        exact (List.append_cancel_left front).symm
      · exact ih (fun other member => marked other (List.mem_cons_of_mem first member))
          (List.append_cancel_left sameTail) inRest

/-- Bodies that leave a text as it is are those that it has. -/
theorem Layout.body_eq_of_replaceBodies_eq {style : CommentStyle}
    (someOpening : style.opening ≠ []) {text : Text} {lead : List Text} {blocks : List Block}
    (layout : Layout style text lead blocks) {bodies : Entries String Text}
    (fit : Fit style bodies)
    (same : replaceBodies bodies text 0 (Block.regions lead.flatten.length blocks) = text)
    {block : Block} (inBlocks : block ∈ blocks) {body : Text}
    (isBody : Entries.get? block.name bodies = some body) : body = block.body.flatten := by
  have filledLines := (layout.replace someOpening fit).lines_eq
  rw [same, layout.lines_eq] at filledLines
  exact body_eq_of_fill_lines_eq someOpening fit layout.marked
    (List.append_cancel_left filledLines).symm inBlocks isBody

theorem replaceBody_eq_self_iff {text : Text} {region : Region}
    (ordered : region.start ≤ region.stop) (body : Text) :
    replaceBody text region body = text ↔ body = region.body text := by
  have whole : text.take region.start ++ (region.body text ++ text.drop region.stop) = text := by
    have front : text.take region.start = (text.take region.stop).take region.start := by
      rw [List.take_take, Nat.min_eq_left ordered]
    rw [front, Region.body, ← List.append_assoc, List.take_append_drop, List.take_append_drop]
  rw [replaceBody, List.append_assoc]
  constructor
  · intro same
    have sameTail := List.append_cancel_left (same.trans whole.symm)
    exact List.append_cancel_right sameTail
  · rintro rfl
    exact whole

end Region

end ApiWorkshop
