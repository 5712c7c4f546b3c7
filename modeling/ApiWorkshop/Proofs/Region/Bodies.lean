import Mathlib.Data.List.Basic
import ApiWorkshop.Proofs.Region.Replace

/-!
# The bodies of regions

The regions of a text that is laid out in blocks have the bodies of the blocks.  With
other bodies put in place they have these, as long as no body can lose a line feed to
the line before it.
-/

namespace ApiWorkshop

namespace Region

/-- A region of blocks parts the text at the body of its block. -/
theorem exists_split_of_mem_regions {region : Region} (before : Text) {blocks : List Block}
    (member : region ∈ Block.regions before.length blocks) :
    let text := before ++ (blocks.flatMap Block.lines).flatten
    ∃ (front : List Block) (block : Block) (back : List Block),
      blocks = front ++ block :: back ∧ region.name = block.name ∧ region.start ≤ region.stop ∧
      text.take region.start = before ++ (front.flatMap Block.lines).flatten ++ block.opening ∧
      region.body text = block.body.flatten ∧
      text.drop region.stop =
        block.closing ++ (block.gap.flatten ++ (back.flatMap Block.lines).flatten) := by
  induction blocks generalizing before with
  | nil => simp [Block.regions] at member
  | cons block blocks ih =>
      rw [List.flatMap_cons, List.flatten_append]
      rcases List.mem_cons.mp member with rfl | inRest
      · refine ⟨[], block, blocks, rfl, rfl, by simp, ?_, body_block before _ block, ?_⟩
        · rw [Block.lines, List.cons_append, List.flatten_cons, List.append_assoc block.opening,
            ← List.append_assoc before, List.take_left' (by simp)]
          simp
        · have shape : before ++ (block.lines.flatten ++ (blocks.flatMap Block.lines).flatten) =
              (before ++ block.opening ++ block.body.flatten) ++
                (block.closing ++ (block.gap.flatten ++ (blocks.flatMap Block.lines).flatten)) := by
            simp [Block.lines]
          rw [shape, List.drop_left' (by simp; omega)]
      · rw [← List.length_append] at inRest
        obtain ⟨front, found, back, rfl, sameName, ordered, isFront, isBody, isBack⟩ :=
          ih (before ++ block.lines.flatten) inRest
        rw [List.append_assoc] at isFront isBody isBack
        exact ⟨block :: front, found, back, rfl, sameName, ordered, by simpa using isFront, isBody,
          isBack⟩

theorem Layout.exists_split {style : CommentStyle} {text : Text} {lead : List Text}
    {blocks : List Block} (layout : Layout style text lead blocks) {region : Region}
    (member : region ∈ Block.regions lead.flatten.length blocks) :
    ∃ (front : List Block) (block : Block) (back : List Block),
      blocks = front ++ block :: back ∧ region.name = block.name ∧ region.start ≤ region.stop ∧
      text.take region.start = lead.flatten ++ (front.flatMap Block.lines).flatten ++ block.opening ∧
      region.body text = block.body.flatten ∧
      text.drop region.stop =
        block.closing ++ (block.gap.flatten ++ (back.flatMap Block.lines).flatten) := by
  have split := exists_split_of_mem_regions lead.flatten member
  rwa [← layout.text_eq] at split

/-- A region found in a text is the body of a block. -/
theorem Layout.exists_block {style : CommentStyle} {text : Text} {lead : List Text}
    {blocks : List Block} (layout : Layout style text lead blocks) {region : Region}
    (member : region ∈ Block.regions lead.flatten.length blocks) :
    ∃ block ∈ blocks, region.name = block.name ∧ region.start ≤ region.stop ∧
      region.body text = block.body.flatten := by
  obtain ⟨front, block, back, rfl, sameName, ordered, -, isBody, -⟩ := layout.exists_split member
  exact ⟨block, by simp, sameName, ordered, isBody⟩

/-- The regions of a text have the names and the bodies of its blocks. -/
theorem Layout.map_body {style : CommentStyle} {text : Text} {lead : List Text}
    {blocks : List Block} (layout : Layout style text lead blocks) :
    (Block.regions lead.flatten.length blocks).map (fun region => (region.name, region.body text)) =
      blocks.map fun block => (block.name, block.body.flatten) := by
  have bodies (before : Text) (blocks : List Block) :
      (Block.regions before.length blocks).map (fun region =>
          (region.name, region.body (before ++ (blocks.flatMap Block.lines).flatten))) =
        blocks.map fun block => (block.name, block.body.flatten) := by
    induction blocks generalizing before with
    | nil => rfl
    | cons block blocks ih =>
        have rest := ih (before ++ block.lines.flatten)
        simp only [List.length_append, List.append_assoc] at rest
        simp only [Block.regions, List.map_cons, List.flatMap_cons, List.flatten_append, body_block,
          rest]
  have whole := bodies lead.flatten blocks
  rwa [← layout.text_eq] at whole

/-- What is in a text from the line that begins a region on falls into lines as it does
in the text. -/
theorem Layout.areLines_block {style : CommentStyle} {text : Text} {lead : List Text}
    {front back : List Block} {block : Block}
    (layout : Layout style text lead (front ++ block :: back)) :
    Text.AreLines ([block.opening] ++
      (block.body ++ (block.closing :: block.gap ++ back.flatMap Block.lines))) := by
  have areLines := Text.areLines_lines text
  have split : Text.lines text = (lead ++ front.flatMap Block.lines) ++ ([block.opening] ++
      (block.body ++ (block.closing :: block.gap ++ back.flatMap Block.lines))) := by
    rw [layout.lines_eq]
    simp [Block.lines]
  rw [split] at areLines
  exact (Text.areLines_of_append areLines).2.1

theorem Layout.areLines_body {style : CommentStyle} {text : Text} {lead : List Text}
    {blocks : List Block} (layout : Layout style text lead blocks) {block : Block}
    (inBlocks : block ∈ blocks) : Text.AreLines block.body := by
  obtain ⟨front, back, rfl⟩ := List.append_of_mem inBlocks
  exact (Text.areLines_of_append (Text.areLines_of_append layout.areLines_block).2.1).1

/-- What follows the body of a region does not begin with a line feed. -/
theorem Layout.head?_closing_ne_feed {style : CommentStyle} (someOpening : style.opening ≠ [])
    {text : Text} {lead : List Text} {front back : List Block} {block : Block}
    (layout : Layout style text lead (front ++ block :: back)) (rest : Text) :
    (block.closing ++ rest).head? ≠ some '\n' := by
  have bodyLines := (Text.areLines_of_append layout.areLines_block).2.1
  have closingLine := (Text.areLines_cons (Text.areLines_of_append bodyLines).2.1).1
  rw [List.head?_append_of_ne_nil _ (Text.ne_nil_of_areLines_cons closingLine)]
  exact head?_ne_feed_of_markerOf? someOpening closingLine
    (layout.marked block (by simp)).closing_marker

/-- The body of a region has no marker line. -/
theorem unmarked_body {path : String} {text : Text} {regions : List Region}
    (found : findRegions path text = .ok regions) {region : Region} (member : region ∈ regions) :
    Unmarked (CommentStyle.ofPath path) (region.body text) := by
  obtain ⟨lead, blocks, layout, rfl⟩ := findRegions_eq_ok_iff.mp found
  obtain ⟨block, inBlocks, -, -, isBody⟩ := layout.exists_block member
  have isLines : Text.lines block.body.flatten = block.body := layout.areLines_body inBlocks
  rw [unmarked_iff (CommentStyle.opening_ofPath_ne_nil path), isBody, isLines]
  exact (layout.marked block inBlocks).body_unmarked

theorem names_nodup {path : String} {text : Text} {regions : List Region}
    (found : findRegions path text = .ok regions) : (regions.map Region.name).Nodup := by
  obtain ⟨lead, blocks, layout, rfl⟩ := findRegions_eq_ok_iff.mp found
  rw [Block.map_name_regions]
  exact layout.nodup

theorem ordered_of_mem {path : String} {text : Text} {regions : List Region}
    (found : findRegions path text = .ok regions) {region : Region} (member : region ∈ regions) :
    region.start ≤ region.stop := by
  obtain ⟨lead, blocks, layout, rfl⟩ := findRegions_eq_ok_iff.mp found
  obtain ⟨-, -, -, ordered, -⟩ := layout.exists_block member
  exact ordered

theorem replaceBodies_nil {path : String} {text : Text} {regions : List Region}
    (found : findRegions path text = .ok regions) : replaceBodies [] text 0 regions = text := by
  obtain ⟨lead, blocks, layout, rfl⟩ := findRegions_eq_ok_iff.mp found
  exact layout.replaceBodies_nil

theorem isInfix_body (text : Text) (region : Region) : region.body text <:+: text :=
  (List.drop_suffix _ _).isInfix.trans (List.take_prefix _ _).isInfix

theorem fill_body_flatten (bodies : Entries String Text) {block : Block}
    (noReturn : (Entries.get? block.name bodies).isSome = true →
      block.opening.getLast? ≠ some '\r') :
    (block.fill bodies).body.flatten =
      (Entries.get? block.name bodies).getD block.body.flatten := by
  cases isBody : Entries.get? block.name bodies with
  | none => rw [Block.fill_of_none isBody, Option.getD_none]
  | some body =>
      have apart : ¬ Text.JoinsPair block.opening body :=
        fun joins => noReturn (by rw [isBody]; rfl) joins.1
      simp [Block.fill, isBody, apart, Text.lines_flatten]

/-- The regions of a text with new bodies are those of the text, with the new bodies
where there are some.  A body does not lose a line feed to a line that ends otherwise
than in a carriage return. -/
theorem Layout.map_body_replaceBodies {style : CommentStyle} (someOpening : style.opening ≠ [])
    {text : Text} {lead : List Text} {blocks : List Block}
    (layout : Layout style text lead blocks) {bodies : Entries String Text}
    (fit : Fit style bodies)
    (noReturn : ∀ block ∈ blocks, (Entries.get? block.name bodies).isSome = true →
      block.opening.getLast? ≠ some '\r') :
    let regions := Block.regions lead.flatten.length blocks
    let current := replaceBodies bodies text 0 regions
    (Block.regions lead.flatten.length (blocks.map (Block.fill bodies))).map
        (fun region => (region.name, region.body current)) =
      regions.map fun region =>
        (region.name, (Entries.get? region.name bodies).getD (region.body text)) := by
  intro regions current
  have asBlocks : (regions.map fun region => (region.name, region.body text)).map (fun entry =>
      (entry.1, (Entries.get? entry.1 bodies).getD entry.2)) =
        blocks.map fun block =>
          (block.name, (Entries.get? block.name bodies).getD block.body.flatten) := by
    rw [layout.map_body, List.map_map]
    rfl
  rw [(layout.replace someOpening fit).map_body, List.map_map]
  rw [List.map_map] at asBlocks
  refine .trans (List.map_congr_left fun block member => ?_) asBlocks.symm
  have isBody := fill_body_flatten bodies (noReturn block member)
  simp only [Function.comp_apply, Block.fill_name, isBody]

end Region

end ApiWorkshop
