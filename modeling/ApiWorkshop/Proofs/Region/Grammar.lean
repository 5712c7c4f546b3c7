import ApiWorkshop.Proofs.Region.Markers

/-!
# The grammar of marked texts

Regions are found in a text exactly if its marker lines come in pairs, the beginning of
a region and then its end, and no name comes twice.  The regions have the names of the
pairs in order, and each spans what is between its two lines.
-/

namespace ApiWorkshop

namespace Region

/-- A line is a marker without the carriage returns and line feeds at its end. -/
def IsMarkerLine (style : CommentStyle) (line : Text) (marker : Marker) : Prop :=
  marker.IsShownBy style (Text.trimEnd isLineEnd line)

/-- The markers that lines show, in order. -/
inductive Shown (style : CommentStyle) : List Text → List Marker → Prop
  | nil : Shown style [] []
  | marker {line : Text} {parts : List Text} {marker : Marker} {markers : List Marker}
      (isMarker : IsMarkerLine style line marker) (rest : Shown style parts markers) :
      Shown style (line :: parts) (marker :: markers)
  | plain {line : Text} {parts : List Text} {markers : List Marker}
      (noMarker : ∀ marker, ¬ IsMarkerLine style line marker) (rest : Shown style parts markers) :
      Shown style (line :: parts) markers

/-- The beginning and the end of each of some regions, one region after the other. -/
def paired (names : List String) : List Marker :=
  names.flatMap fun name => [⟨.opening, name⟩, ⟨.closing, name⟩]

/-- A region starts behind the line that begins it and stops at the line that ends it;
no line between the two is a marker. -/
inductive Spans (style : CommentStyle) (text : Text) : Region → Prop
  | mk {front inside back : List Text} {opening closing : Text} {name : String}
      (isSplit : Text.lines text = front ++ opening :: inside ++ closing :: back)
      (isOpening : IsMarkerLine style opening ⟨.opening, name⟩)
      (isClosing : IsMarkerLine style closing ⟨.closing, name⟩)
      (noMarker : ∀ line ∈ inside, ∀ marker, ¬ IsMarkerLine style line marker) :
      Spans style text
        ⟨name, (front ++ [opening]).flatten.length, (front ++ opening :: inside).flatten.length⟩

section Lines

variable {style : CommentStyle} (isTight : style.IsTight)

include isTight

theorem markerOf?_eq_some_iff {line : Text} {marker : Marker} :
    markerOf? style line = some marker ↔ IsMarkerLine style line marker :=
  Marker.ofLine?_eq_some_iff isTight

theorem markerOf?_eq_none_iff {line : Text} :
    markerOf? style line = none ↔ ∀ marker, ¬ IsMarkerLine style line marker := by
  simp only [Option.eq_none_iff_forall_ne_some, ne_eq, markerOf?_eq_some_iff isTight]

/-- The markers of lines are what each line says as a marker. -/
theorem shown_iff {parts : List Text} {markers : List Marker} :
    Shown style parts markers ↔ parts.filterMap (markerOf? style) = markers := by
  constructor
  · intro areShown
    induction areShown with
    | nil => rfl
    | marker isMarker _ ih =>
        rw [List.filterMap_cons_some ((markerOf?_eq_some_iff isTight).mpr isMarker), ih]
    | plain noMarker _ ih =>
        rw [List.filterMap_cons_none ((markerOf?_eq_none_iff isTight).mpr noMarker), ih]
  · rintro rfl
    induction parts with
    | nil => exact .nil
    | cons line parts ih =>
        cases isMarker : markerOf? style line with
        | none =>
            rw [List.filterMap_cons_none isMarker]
            exact .plain ((markerOf?_eq_none_iff isTight).mp isMarker) ih
        | some marker =>
            rw [List.filterMap_cons_some isMarker]
            exact .marker ((markerOf?_eq_some_iff isTight).mp isMarker) ih

end Lines

/-! ## Blocks and pairs -/

theorem filterMap_of_unmarked {style : CommentStyle} {parts : List Text}
    (unmarked : UnmarkedLines style parts) : parts.filterMap (markerOf? style) = [] :=
  List.filterMap_eq_nil_iff.mpr unmarked

theorem filterMap_blocks {style : CommentStyle} {blocks : List Block}
    (marked : ∀ block ∈ blocks, block.IsMarked style) :
    (blocks.flatMap Block.lines).filterMap (markerOf? style) = paired (blocks.map Block.name) := by
  induction blocks with
  | nil => rfl
  | cons block blocks ih =>
      obtain ⟨isMarked, restMarked⟩ := List.forall_mem_cons.mp marked
      rw [List.flatMap_cons, List.filterMap_append, ih restMarked, Block.lines, List.cons_append,
        List.filterMap_cons_some isMarked.opening_marker, List.filterMap_append,
        filterMap_of_unmarked isMarked.body_unmarked,
        List.filterMap_cons_some isMarked.closing_marker,
        filterMap_of_unmarked isMarked.gap_unmarked]
      rfl

/-- Lines that show pairs of markers are laid out in blocks. -/
theorem exists_blocks_of_paired {style : CommentStyle} {parts : List Text} {names : List String}
    (arePaired : parts.filterMap (markerOf? style) = paired names) :
    ∃ (lead : List Text) (blocks : List Block),
      parts = lead ++ blocks.flatMap Block.lines ∧ UnmarkedLines style lead ∧
      (∀ block ∈ blocks, block.IsMarked style) ∧ blocks.map Block.name = names := by
  induction names generalizing parts with
  | nil =>
      exact ⟨parts, [], by simp, List.filterMap_eq_nil_iff.mp arePaired, by simp, rfl⟩
  | cons name names ih =>
      obtain ⟨lead, opening, behind, rfl, leadUnmarked, isOpening, restPaired⟩ :=
        List.filterMap_eq_cons_iff.mp arePaired
      obtain ⟨body, closing, rest, rfl, bodyUnmarked, isClosing, arePaired⟩ :=
        List.filterMap_eq_cons_iff.mp restPaired
      obtain ⟨gap, blocks, rfl, gapUnmarked, marked, rfl⟩ := ih arePaired
      refine ⟨lead, ⟨name, opening, body, closing, gap⟩ :: blocks, by simp [Block.lines],
        leadUnmarked, List.forall_mem_cons.mpr ⟨?_, marked⟩, rfl⟩
      exact ⟨isOpening, isClosing, bodyUnmarked, gapUnmarked⟩

/-! ## Spans -/

/-- The markers of a text with regions come in pairs. -/
theorem filterMap_of_found {path : String} {text : Text} {regions : List Region}
    (found : findRegions path text = .ok regions) :
    (Text.lines text).filterMap (markerOf? (CommentStyle.ofPath path)) =
      paired (regions.map Region.name) := by
  obtain ⟨lead, blocks, layout, rfl⟩ := findRegions_eq_ok_iff.mp found
  rw [Block.map_name_regions, layout.lines_eq, List.filterMap_append,
    filterMap_of_unmarked layout.lead_unmarked, filterMap_blocks layout.marked]
  rfl

theorem IsMarkerLine.ne_nil {style : CommentStyle} (isTight : style.IsTight) {line : Text}
    {marker : Marker} (isMarker : IsMarkerLine style line marker) : line ≠ [] := by
  rintro rfl
  rw [← markerOf?_eq_some_iff isTight, markerOf?_nil isTight.opening_ne_nil] at isMarker
  contradiction

theorem spans_of_mem_regions {style : CommentStyle} (isTight : style.IsTight) {text : Text}
    {lead : List Text} {blocks : List Block}
    (isSplit : Text.lines text = lead ++ blocks.flatMap Block.lines)
    (marked : ∀ block ∈ blocks, block.IsMarked style) {region : Region}
    (member : region ∈ Block.regions lead.flatten.length blocks) : Spans style text region := by
  induction blocks generalizing lead with
  | nil => simp [Block.regions] at member
  | cons block blocks ih =>
      obtain ⟨isMarked, restMarked⟩ := List.forall_mem_cons.mp marked
      rcases List.mem_cons.mp member with rfl | inRest
      · have spans : Spans style text ⟨block.name, (lead ++ [block.opening]).flatten.length,
            (lead ++ block.opening :: block.body).flatten.length⟩ := by
          have isLines : Text.lines text = lead ++ block.opening :: block.body ++ block.closing ::
              (block.gap ++ blocks.flatMap Block.lines) := by
            simpa [Block.lines] using isSplit
          exact .mk isLines ((markerOf?_eq_some_iff isTight).mp isMarked.opening_marker)
            ((markerOf?_eq_some_iff isTight).mp isMarked.closing_marker)
            fun line inBody => (markerOf?_eq_none_iff isTight).mp (isMarked.body_unmarked line inBody)
        simpa [Nat.add_assoc] using spans
      · have restSplit : Text.lines text = lead ++ block.lines ++ blocks.flatMap Block.lines := by
          simpa using isSplit
        exact ih restSplit restMarked (by simpa using inRest)

/-- The regions of blocks start behind the offset of the blocks. -/
theorem lt_start_of_mem_regions {style : CommentStyle} (isTight : style.IsTight) {offset : Nat}
    {blocks : List Block} (marked : ∀ block ∈ blocks, block.IsMarked style) {region : Region}
    (member : region ∈ Block.regions offset blocks) : offset < region.start := by
  induction blocks generalizing offset with
  | nil => simp [Block.regions] at member
  | cons block blocks ih =>
      obtain ⟨isMarked, restMarked⟩ := List.forall_mem_cons.mp marked
      rcases List.mem_cons.mp member with rfl | inRest
      · have isLine := (markerOf?_eq_some_iff isTight).mp isMarked.opening_marker
        exact Nat.lt_add_of_pos_right (List.length_pos_iff.mpr (isLine.ne_nil isTight))
      · exact Nat.lt_of_le_of_lt (Nat.le_add_right _ _) (ih restMarked inRest)

theorem pairwise_regions {style : CommentStyle} (isTight : style.IsTight) {blocks : List Block}
    (marked : ∀ block ∈ blocks, block.IsMarked style) (offset : Nat) :
    (Block.regions offset blocks).Pairwise fun first second => first.stop < second.start := by
  induction blocks generalizing offset with
  | nil => exact .nil
  | cons block blocks ih =>
      obtain ⟨-, restMarked⟩ := List.forall_mem_cons.mp marked
      refine List.pairwise_cons.mpr ⟨fun region inRest => ?_, ih restMarked _⟩
      have isBehind := lt_start_of_mem_regions isTight restMarked inRest
      refine Nat.lt_of_le_of_lt ?_ isBehind
      simp only [Block.lines, List.cons_append, List.flatten_cons, List.flatten_append,
        List.length_append]
      omega

end Region

/-- Regions are found exactly where the marker lines of a text come in pairs under
distinct names; they have these names in order and span what is between the lines of their
pairs, one behind the other.  In every other text there is a conflict over its file. -/
theorem findRegions_accepts_paired_markers (path : String) (text : Text) :
    let style := CommentStyle.ofPath path
    (∀ names, (∃ regions, findRegions path text = .ok regions ∧ regions.map Region.name = names) ↔
      names.Nodup ∧ Region.Shown style (Text.lines text) (Region.paired names)) ∧
    (∀ regions, findRegions path text = .ok regions →
      (∀ region ∈ regions, region.Spans style text) ∧
        regions.Pairwise fun first second => first.stop < second.start) ∧
    ((¬ ∃ names : List String,
        names.Nodup ∧ Region.Shown style (Text.lines text) (Region.paired names)) →
      ∃ kind, findRegions path text = .error ⟨path, kind⟩) := by
  intro style
  have isTight : style.IsTight := CommentStyle.isTight_ofPath path
  have accepts (names : List String) :
      (∃ regions, findRegions path text = .ok regions ∧ regions.map Region.name = names) ↔
        names.Nodup ∧ Region.Shown style (Text.lines text) (Region.paired names) := by
    rw [Region.shown_iff isTight]
    constructor
    · rintro ⟨regions, found, rfl⟩
      refine ⟨?_, Region.filterMap_of_found found⟩
      obtain ⟨lead, blocks, layout, rfl⟩ := Region.findRegions_eq_ok_iff.mp found
      rw [Block.map_name_regions]
      exact layout.nodup
    · rintro ⟨nodup, arePaired⟩
      obtain ⟨lead, blocks, isSplit, unmarked, marked, rfl⟩ :=
        Region.exists_blocks_of_paired arePaired
      exact ⟨_, Region.findRegions_eq_ok_iff.mpr
        ⟨lead, blocks, ⟨isSplit, unmarked, marked, nodup⟩, rfl⟩, Block.map_name_regions _ _⟩
  refine ⟨accepts, fun regions found => ?_, fun notPaired => ?_⟩
  · obtain ⟨lead, blocks, layout, rfl⟩ := Region.findRegions_eq_ok_iff.mp found
    exact ⟨fun region => Region.spans_of_mem_regions isTight layout.lines_eq layout.marked,
      Region.pairwise_regions isTight layout.marked _⟩
  · rw [findRegions]
    cases scanned : Region.regionsFrom none []
        (Region.markerLines (CommentStyle.ofPath path) text) with
    | ok regions =>
        have found : findRegions path text = .ok regions := by rw [findRegions, scanned]
        exact absurd ⟨_, (accepts _).mp ⟨regions, found, rfl⟩⟩ notPaired
    | error kind => exact ⟨kind, rfl⟩

end ApiWorkshop
