import ApiWorkshop.Proofs.Region.Unmarked

/-!
# Texts laid out in blocks

A text whose markers make regions is a run of unmarked lines followed by blocks:
a line that begins a region, the unmarked lines of its body, the line that ends
it, and the unmarked lines up to the next block.  Finding regions succeeds
exactly on these texts, and the regions that it finds are the bodies of the
blocks, by their offsets.
-/

namespace ApiWorkshop

namespace CommentStyle

theorem opening_ofPath_ne_nil (path : String) : (ofPath path).opening ≠ [] := by
  rw [ofPath, ofSuffix]
  split
  · decide
  · split
    · decide
    · split <;> decide

end CommentStyle

/-- A region of a text by its lines, with the unmarked lines that follow it. -/
structure Block where
  name : String
  opening : Text
  body : List Text
  closing : Text
  gap : List Text

namespace Region

/-- What a line with its line end says as a marker. -/
def markerOf? (style : CommentStyle) (line : Text) : Option Marker :=
  Marker.ofLine? style (Text.trimEnd isLineEnd line)

/-- None of some lines is a marker line. -/
def UnmarkedLines (style : CommentStyle) (parts : List Text) : Prop :=
  ∀ line ∈ parts, markerOf? style line = none

instance (style : CommentStyle) (parts : List Text) : Decidable (UnmarkedLines style parts) :=
  inferInstanceAs (Decidable (∀ line ∈ parts, markerOf? style line = none))

theorem markerOf?_nil {style : CommentStyle} (someOpening : style.opening ≠ []) :
    markerOf? style [] = none := by
  obtain ⟨c, opening, isOpening⟩ := List.exists_cons_of_ne_nil someOpening
  simp [markerOf?, Marker.ofLine?, Text.trimEnd, isOpening, Text.after?]

/-- A text is unmarked when its lines are. -/
theorem unmarked_iff {style : CommentStyle} (someOpening : style.opening ≠ []) (text : Text) :
    Unmarked style text ↔ UnmarkedLines style (Text.lines text) := by
  rw [Unmarked, ← Text.lineStems_lines, UnmarkedLines]
  simp only [Text.lineStems, List.mem_filter, List.mem_map]
  constructor
  · intro unmarked line member
    rw [markerOf?]
    cases isEmpty : (Text.trimEnd isLineEnd line).isEmpty with
    | false => exact unmarked _ ⟨⟨line, member, rfl⟩, by simp [isEmpty]⟩
    | true =>
        rw [List.isEmpty_iff.mp isEmpty]
        exact markerOf?_nil someOpening
  · rintro unmarked stem ⟨⟨line, member, rfl⟩, -⟩
    exact unmarked line member

/-- A marker line does not begin with a line feed. -/
theorem head?_ne_feed_of_markerOf? {style : CommentStyle} (someOpening : style.opening ≠ [])
    {line : Text} {marker : Marker} (isLine : Text.AreLines [line])
    (isMarker : markerOf? style line = some marker) : line.head? ≠ some '\n' := by
  intro isFeed
  obtain ⟨rest, rfl⟩ : ∃ rest, line = '\n' :: rest := by
    cases line with
    | nil => simp at isFeed
    | cons c rest => exact ⟨rest, by simpa using isFeed⟩
  have split : Text.lines ('\n' :: rest) = ['\n' :: rest] := by
    simpa [Text.AreLines] using isLine
  rw [Text.lines_break rfl (by simp [Text.JoinsPair])] at split
  obtain ⟨noRest, -⟩ := List.cons.inj split
  rw [← noRest] at isMarker
  have noMarker := markerOf?_nil someOpening
  simp [markerOf?, Text.trimEnd, isLineEnd] at isMarker noMarker
  simp [noMarker] at isMarker

end Region

namespace Block

/-- The lines of a block. -/
def lines (block : Block) : List Text :=
  block.opening :: block.body ++ block.closing :: block.gap

/-- The regions of blocks, the first of which starts at an offset. -/
def regions : Nat → List Block → List Region
  | _, [] => []
  | offset, block :: blocks =>
      let start := offset + block.opening.length
      ⟨block.name, start, start + block.body.flatten.length⟩ ::
        regions (offset + block.lines.flatten.length) blocks

@[simp]
theorem map_name_regions (offset : Nat) (blocks : List Block) :
    (regions offset blocks).map Region.name = blocks.map name := by
  induction blocks generalizing offset with
  | nil => rfl
  | cons block blocks ih => simp [regions, ih]

theorem regions_append (offset : Nat) (first second : List Block) :
    regions offset (first ++ second) =
      regions offset first ++ regions (offset + (first.flatMap lines).flatten.length) second := by
  induction first generalizing offset with
  | nil => simp [regions]
  | cons block blocks ih => simp [regions, ih, Nat.add_assoc]

/-- The markers of a block are its first line and the line after its body. -/
structure IsMarked (style : CommentStyle) (block : Block) : Prop where
  opening_marker : Region.markerOf? style block.opening = some ⟨.opening, block.name⟩
  closing_marker : Region.markerOf? style block.closing = some ⟨.closing, block.name⟩
  body_unmarked : Region.UnmarkedLines style block.body
  gap_unmarked : Region.UnmarkedLines style block.gap

end Block

namespace Region

/-- The lines of a text are unmarked lines and blocks with different names. -/
structure Layout (style : CommentStyle) (text : Text) (lead : List Text)
    (blocks : List Block) : Prop where
  lines_eq : Text.lines text = lead ++ blocks.flatMap Block.lines
  lead_unmarked : UnmarkedLines style lead
  marked : ∀ block ∈ blocks, block.IsMarked style
  nodup : (blocks.map Block.name).Nodup

/-! ## From regions to blocks -/

theorem unmarkedLines_cons {style : CommentStyle} {line : Text} {parts : List Text}
    (noMarker : markerOf? style line = none) (unmarked : UnmarkedLines style parts) :
    UnmarkedLines style (line :: parts) := by
  intro other member
  rcases List.mem_cons.mp member with rfl | inParts
  · exact noMarker
  · exact unmarked other inParts

theorem markerLinesFrom_cons_of_none {style : CommentStyle} {line : Text}
    (noMarker : markerOf? style line = none) (number offset : Nat) (parts : List Text) :
    markerLinesFrom style number offset (line :: parts) =
      markerLinesFrom style (number + 1) (offset + line.length) parts := by
  rw [markerOf?] at noMarker
  simp [markerLinesFrom, noMarker]

theorem markerLinesFrom_cons_of_some {style : CommentStyle} {line : Text} {marker : Marker}
    (isMarker : markerOf? style line = some marker) (number offset : Nat) (parts : List Text) :
    markerLinesFrom style number offset (line :: parts) =
      ⟨marker, number, offset, offset + line.length⟩ ::
        markerLinesFrom style (number + 1) (offset + line.length) parts := by
  rw [markerOf?] at isMarker
  simp [markerLinesFrom, isMarker]

theorem markerLinesFrom_append_of_unmarked {style : CommentStyle} {first : List Text}
    (unmarked : UnmarkedLines style first) (number offset : Nat) (second : List Text) :
    markerLinesFrom style number offset (first ++ second) =
      markerLinesFrom style (number + first.length) (offset + first.flatten.length) second := by
  induction first generalizing number offset with
  | nil => rfl
  | cons line parts ih =>
      rw [List.cons_append, markerLinesFrom_cons_of_none (unmarked line (by simp)),
        ih fun other member => unmarked other (List.mem_cons_of_mem line member)]
      simp [Nat.add_assoc, Nat.add_comm 1]

/-- What is found from some lines on while no region is open: the lines are a gap and
blocks, and the regions of the blocks follow those found so far. -/
structure FoundBlocks (style : CommentStyle) (offset : Nat) (found : List Region)
    (parts : List Text) (regions : List Region) (gap : List Text) (blocks : List Block) :
    Prop where
  parts_eq : parts = gap ++ blocks.flatMap Block.lines
  gap_unmarked : UnmarkedLines style gap
  marked : ∀ block ∈ blocks, block.IsMarked style
  nodup : (found.map Region.name ++ blocks.map Block.name).Nodup
  regions_eq : regions = found ++ Block.regions (offset + gap.flatten.length) blocks

/-- What is found from some lines on while a region is open: the rest of its body and the
line that ends it come first, and the region follows those found so far. -/
structure FoundBody (style : CommentStyle) (offset : Nat) (found : List Region)
    (name : String) (start : Nat) (parts : List Text) (regions : List Region)
    (body : List Text) (closing : Text) (gap : List Text) (blocks : List Block) : Prop where
  parts_eq : parts = body ++ closing :: gap ++ blocks.flatMap Block.lines
  body_unmarked : UnmarkedLines style body
  closing_marker : markerOf? style closing = some ⟨.closing, name⟩
  gap_unmarked : UnmarkedLines style gap
  marked : ∀ block ∈ blocks, block.IsMarked style
  nodup : (found.map Region.name ++ name :: blocks.map Block.name).Nodup
  regions_eq : regions = found ++ ⟨name, start, offset + body.flatten.length⟩ ::
    Block.regions (offset + (body ++ closing :: gap).flatten.length) blocks

section Scanning

variable {style : CommentStyle} {offset : Nat} {found regions : List Region}
  {line : Text} {parts gap : List Text} {blocks : List Block} {name : String} {start : Nat}
  {body : List Text} {closing : Text}

theorem FoundBlocks.cons_unmarked (noMarker : markerOf? style line = none)
    (rest : FoundBlocks style (offset + line.length) found parts regions gap blocks) :
    FoundBlocks style offset found (line :: parts) regions (line :: gap) blocks where
  parts_eq := by rw [rest.parts_eq, List.cons_append]
  gap_unmarked := unmarkedLines_cons noMarker rest.gap_unmarked
  marked := rest.marked
  nodup := rest.nodup
  regions_eq := by simp [rest.regions_eq, Nat.add_assoc]

theorem FoundBody.cons_unmarked (noMarker : markerOf? style line = none)
    (rest : FoundBody style (offset + line.length) found name start parts regions
      body closing gap blocks) :
    FoundBody style offset found name start (line :: parts) regions
      (line :: body) closing gap blocks where
  parts_eq := by simp [rest.parts_eq]
  body_unmarked := unmarkedLines_cons noMarker rest.body_unmarked
  closing_marker := rest.closing_marker
  gap_unmarked := rest.gap_unmarked
  marked := rest.marked
  nodup := rest.nodup
  regions_eq := by simp [rest.regions_eq, Nat.add_assoc]

/-- The line that begins a region makes a block of what is found behind it. -/
theorem FoundBody.cons_opening (isOpening : markerOf? style line = some ⟨.opening, name⟩)
    (rest : FoundBody style (offset + line.length) found name (offset + line.length) parts
      regions body closing gap blocks) :
    FoundBlocks style offset found (line :: parts) regions []
      (⟨name, line, body, closing, gap⟩ :: blocks) where
  parts_eq := by simp [rest.parts_eq, Block.lines]
  gap_unmarked := by simp [UnmarkedLines]
  marked := by
    intro block member
    rcases List.mem_cons.mp member with rfl | inBlocks
    · exact ⟨isOpening, rest.closing_marker, rest.body_unmarked, rest.gap_unmarked⟩
    · exact rest.marked block inBlocks
  nodup := by simpa using rest.nodup
  regions_eq := by simp [rest.regions_eq, Block.regions, Block.lines, Nat.add_assoc]

/-- The line that ends the open region has the whole rest of the body in front of it. -/
theorem FoundBlocks.cons_closing (isClosing : markerOf? style line = some ⟨.closing, name⟩)
    (rest : FoundBlocks style (offset + line.length) (found ++ [⟨name, start, offset⟩]) parts
      regions gap blocks) :
    FoundBody style offset found name start (line :: parts) regions [] line gap blocks where
  parts_eq := by simp [rest.parts_eq]
  body_unmarked := by simp [UnmarkedLines]
  closing_marker := isClosing
  gap_unmarked := rest.gap_unmarked
  marked := rest.marked
  nodup := by simpa using rest.nodup
  regions_eq := by simp [rest.regions_eq, Nat.add_assoc]

end Scanning

theorem nodup_names_concat {found : List Region} {name : String}
    (nodup : (found.map Region.name).Nodup)
    (isNew : ¬found.any (·.name = name) = true) : (found.map Region.name ++ [name]).Nodup := by
  simp only [List.any_eq_true, decide_eq_true_eq, not_exists, not_and] at isNew
  refine List.nodup_append.mpr ⟨nodup, by simp, ?_⟩
  rintro other member _ isName rfl
  obtain ⟨region, inFound, rfl⟩ := List.mem_map.mp member
  exact isNew region inFound (by simpa using isName)

/-- The lines on which regions are found make up blocks.  With a region open, the
lines of its body and the line that ends it come first. -/
theorem blocks_of_regionsFrom {style : CommentStyle} {regions : List Region}
    (parts : List Text) (number offset : Nat) (found : List Region) :
    (regionsFrom none found (markerLinesFrom style number offset parts) = .ok regions →
      (found.map Region.name).Nodup →
      ∃ gap blocks, FoundBlocks style offset found parts regions gap blocks) ∧
    ∀ name start,
      regionsFrom (some (name, start)) found (markerLinesFrom style number offset parts) =
          .ok regions →
      (found.map Region.name ++ [name]).Nodup →
      ∃ body closing gap blocks,
        FoundBody style offset found name start parts regions body closing gap blocks := by
  induction parts generalizing number offset found with
  | nil =>
      refine ⟨fun isOk nodup => ⟨[], [], rfl, by simp [UnmarkedLines], by simp, by simpa, ?_⟩,
        fun name start isOk => ?_⟩
      · simpa [markerLinesFrom, regionsFrom, Block.regions, eq_comm] using isOk
      · simp [markerLinesFrom, regionsFrom] at isOk
  | cons line parts ih =>
      cases isMarker : markerOf? style line with
      | none =>
          rw [markerLinesFrom_cons_of_none isMarker]
          obtain ⟨closed, opened⟩ := ih (number + 1) (offset + line.length) found
          constructor
          · intro isOk nodup
            obtain ⟨gap, blocks, rest⟩ := closed isOk nodup
            exact ⟨line :: gap, blocks, rest.cons_unmarked isMarker⟩
          · intro name start isOk nodup
            obtain ⟨body, closing, gap, blocks, rest⟩ := opened name start isOk nodup
            exact ⟨line :: body, closing, gap, blocks, rest.cons_unmarked isMarker⟩
      | some marker =>
          obtain ⟨boundary, markerName⟩ := marker
          rw [markerLinesFrom_cons_of_some isMarker]
          -- A marker changes between an open region and none, so each kind of marker
          -- ends well in one of the two cases only.
          cases boundary with
          | opening =>
              refine ⟨fun isOk nodup => ?_, fun name start isOk => by simp [regionsFrom] at isOk⟩
              simp only [regionsFrom] at isOk
              split at isOk
              next => contradiction
              next isNew =>
                obtain ⟨body, closing, gap, blocks, rest⟩ :=
                  (ih _ _ found).2 markerName _ isOk (nodup_names_concat nodup isNew)
                exact ⟨[], _, rest.cons_opening isMarker⟩
          | closing =>
              refine ⟨fun isOk => by simp [regionsFrom] at isOk, fun name start isOk nodup => ?_⟩
              simp only [regionsFrom] at isOk
              split at isOk
              next sameName =>
                subst sameName
                obtain ⟨gap, blocks, rest⟩ := (ih _ _ _).1 isOk (by simpa using nodup)
                exact ⟨[], line, gap, blocks, rest.cons_closing isMarker⟩
              next => contradiction

/-! ## From blocks to regions -/

/-- The regions of blocks are found behind those found so far. -/
theorem regionsFrom_blocks {style : CommentStyle} {gap : List Text} {blocks : List Block}
    (unmarked : UnmarkedLines style gap) (marked : ∀ block ∈ blocks, block.IsMarked style)
    (number offset : Nat) (found : List Region)
    (nodup : (found.map Region.name ++ blocks.map Block.name).Nodup) :
    regionsFrom none found
        (markerLinesFrom style number offset (gap ++ blocks.flatMap Block.lines)) =
      .ok (found ++ Block.regions (offset + gap.flatten.length) blocks) := by
  rw [markerLinesFrom_append_of_unmarked unmarked]
  induction blocks generalizing gap number offset found with
  | nil => simp [markerLinesFrom, regionsFrom, Block.regions]
  | cons block blocks ih =>
      obtain ⟨isOpening, isClosing, bodyUnmarked, gapUnmarked⟩ := marked block (by simp)
      have isNew : found.any (·.name = block.name) = false := by
        simp only [List.any_eq_false, decide_eq_true_eq]
        intro region inFound sameName
        exact (List.nodup_append.mp nodup).2.2 region.name (List.mem_map_of_mem inFound) block.name
          (by simp) sameName
      simp only [List.flatMap_cons, Block.lines, List.cons_append, List.append_assoc]
      rw [markerLinesFrom_cons_of_some isOpening, markerLinesFrom_append_of_unmarked bodyUnmarked,
        markerLinesFrom_cons_of_some isClosing, markerLinesFrom_append_of_unmarked gapUnmarked]
      simp only [regionsFrom, isNew, Bool.false_eq_true, if_false, if_true]
      have noGap : UnmarkedLines style [] := by simp [UnmarkedLines]
      have rest := ih noGap
        (fun other member => marked other (List.mem_cons_of_mem block member))
        (number + gap.length + 1 + block.body.length + 1 + block.gap.length)
        (offset + gap.flatten.length + block.opening.length + block.body.flatten.length +
          block.closing.length + block.gap.flatten.length)
        (found ++ [⟨block.name, offset + gap.flatten.length + block.opening.length,
          offset + gap.flatten.length + block.opening.length + block.body.flatten.length⟩])
        (by simpa using nodup)
      simp only [List.length_nil, List.flatten_nil, Nat.add_zero] at rest
      rw [rest]
      simp [Block.regions, Block.lines, Nat.add_assoc]

/-- Regions are found in exactly the texts that are laid out in blocks. -/
theorem findRegions_eq_ok_iff {path : String} {text : Text} {regions : List Region} :
    findRegions path text = .ok regions ↔
      ∃ lead blocks, Layout (CommentStyle.ofPath path) text lead blocks ∧
        regions = Block.regions lead.flatten.length blocks := by
  constructor
  · intro isOk
    rw [findRegions, markerLines] at isOk
    split at isOk
    next found scanned =>
      obtain rfl : found = regions := by simpa using isOk
      obtain ⟨lead, blocks, isFound⟩ := (blocks_of_regionsFrom _ 1 0 []).1 scanned (by simp)
      exact ⟨lead, blocks,
        ⟨isFound.parts_eq, isFound.gap_unmarked, isFound.marked, by simpa using isFound.nodup⟩,
        by simpa using isFound.regions_eq⟩
    next => contradiction
  · rintro ⟨lead, blocks, layout, rfl⟩
    have scanned := regionsFrom_blocks layout.lead_unmarked layout.marked 1 0 []
      (by simpa using layout.nodup)
    rw [findRegions, markerLines, layout.lines_eq, scanned]
    simp

end Region

end ApiWorkshop
