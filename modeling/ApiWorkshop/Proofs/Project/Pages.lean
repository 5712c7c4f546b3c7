import ApiWorkshop.Proofs.Project.OneLined

/-!
# Pages and their descriptions

The description of an API stands on the page of its project as it is.  So the markers that
it shows are markers of the page, and a pair of carriage return and line feed in it is a
pair of the page.  The first gets in the way of the region of the page, and the second one
leaves the region unsettled.
-/

namespace ApiWorkshop

theorem Region.IsPlainLine.filterMap_eq_nil {style : CommentStyle} {line : Text}
    (isPlain : IsPlainLine style line) :
    (Text.lines (line ++ ['\n'])).filterMap (markerOf? style) = [] :=
  List.filterMap_eq_nil_iff.mpr isPlain.unmarkedLines

theorem Region.length_paired (names : List String) : (paired names).length = 2 * names.length := by
  simp [paired, Nat.mul_comm]

/-- Not every line feed is in a pair where a line does not end in a carriage return. -/
theorem Text.not_feedsPaired_unlines {line : Text} (noReturn : line.getLast? ≠ some '\r')
    (lines : List Text) : ¬ FeedsPaired (unlines (line :: lines)) := by
  intro paired
  exact noReturn (paired line (unlines lines) (by simp [unlines]))

namespace Overview

variable {settings : ProjectSettings} (oneLined : settings.IsOneLined)

include oneLined

/-- The markers of the page before its table are those of the description. -/
theorem filterMap_introduction (description : String) :
    (Text.lines (Text.unlines ((introductionLines settings description).map
        LooseText.shown))).filterMap (Region.markerOf? (CommentStyle.ofPath "README.md")) =
      (Text.lines (description.toList ++ ['\n'])).filterMap
        (Region.markerOf? (CommentStyle.ofPath "README.md")) := by
  have places : (placeLines settings).flatMap (fun line => (Text.lines (line.shown ++
      ['\n'])).filterMap (Region.markerOf? (CommentStyle.ofPath "README.md"))) = [] :=
    List.flatMap_eq_nil_iff.mpr fun line member =>
      (isPlainLine_placeLine oneLined line member).filterMap_eq_nil
  rw [Region.filterMap_unlines, List.flatMap_map]
  simp only [introductionLines, List.flatMap_append, List.flatMap_cons, List.flatMap_nil,
    (isPlainLine_title oneLined).filterMap_eq_nil, isPlainLine_empty.filterMap_eq_nil, places,
    List.append_nil, List.nil_append]
  split
  next isEmpty =>
    obtain rfl : description = "" := String.isEmpty_iff.mp isEmpty
    exact isPlainLine_empty.filterMap_eq_nil.symm
  next =>
    rw [List.flatMap_cons, List.flatMap_singleton, isPlainLine_empty.filterMap_eq_nil,
      List.append_nil, LooseText.ofString, LooseText.shown_ofText]

end Overview

namespace ProjectFile

/-- A description stands on the page. -/
theorem isInfix_page (settings : ProjectSettings) {api : Api} (table : TranslationTable)
    (someDescription : api.description ≠ "") :
    api.description.toList <:+: (page.text settings api table).shown := by
  have member : LooseText.ofString api.description ∈
      Overview.introductionLines settings api.description := by
    simp [Overview.introductionLines, someDescription]
  have isPart := List.infix_of_mem_flatten (List.mem_map_of_mem
    (f := fun line : LooseText => line.shown ++ ['\n']) member)
  rw [LooseText.ofString, LooseText.shown_ofText] at isPart
  rw [text, Overview.page, Overview.introduction, LooseText.shown_append, LooseText.shown_unlines,
    Text.unlines, List.flatMap_map, List.flatMap_def]
  exact ((List.prefix_append _ _).isInfix.trans isPart).trans (List.prefix_append _ _).isInfix

variable {settings : ProjectSettings} {api : Api} (oneLined : settings.IsOneLined)
  (paths : ∀ endpoint ∈ api.endpoints, ∀ c ∈ endpoint.path.toList, Text.isLineBreak c = false)
  (summaries : ∀ endpoint ∈ api.endpoints, ∀ c ∈ endpoint.summary.toList,
    Text.isLineBreak c = false)
  (table : TranslationTable)

include oneLined paths summaries

/-- The markers of the page are those of the description and the two of its region. -/
theorem filterMap_page :
    (Text.lines (page.text settings api table).shown).filterMap
        (Region.markerOf? (CommentStyle.ofPath "README.md")) =
      (Text.lines (api.description.toList ++ ['\n'])).filterMap
        (Region.markerOf? (CommentStyle.ofPath "README.md")) ++ Region.paired ["endpoints"] := by
  have none : (Text.lines (Text.unlines (Overview.tableHead.map String.toList ++
      api.endpoints.map Overview.endpointRow))).filterMap
        (Region.markerOf? (CommentStyle.ofPath "README.md")) = [] :=
    Region.filterMap_unlines_eq_nil_iff.mpr fun line member =>
      ((Overview.isInert_tableLine paths summaries line member).isPlainLine _).unmarkedLines
  have isName : IsRegionName "endpoints" := ⟨by decide, List.all_eq_true.mp (by decide)⟩
  rw [shown_text, outline, show (page.path settings.packageName).label = "README.md" from rfl,
    Outline.filterMap_framed isName, none, Overview.filterMap_introduction oneLined]
  rfl

/-- The page has its own markers only if the description shows none. -/
theorem ownMarkers_page_iff :
    (Text.lines (page.text settings api table).shown).filterMap
        (Region.markerOf? (CommentStyle.ofPath (page.path settings.packageName).label)) =
      Region.paired page.regionName?.toList ↔
    (Text.lines (api.description.toList ++ ['\n'])).filterMap
      (Region.markerOf? (CommentStyle.ofPath "README.md")) = [] := by
  have isPath : (page.path settings.packageName).label = "README.md" := rfl
  have isName : page.regionName?.toList = ["endpoints"] := rfl
  rw [isPath, isName, filterMap_page oneLined paths summaries table, List.append_left_eq_self]

/-- A description with an odd number of markers leaves the page without a partner for one
of them. -/
theorem exists_conflict_of_page
    (odd : ((Text.lines (api.description.toList ++ ['\n'])).filterMap
      (Region.markerOf? (CommentStyle.ofPath "README.md"))).length % 2 = 1) :
    ∃ conflict, findRegions (page.path settings.packageName).label
      (page.text settings api table).shown = .error conflict := by
  cases found : findRegions (page.path settings.packageName).label
      (page.text settings api table).shown with
  | error conflict => exact ⟨conflict, rfl⟩
  | ok regions =>
      have markers : _ = Region.paired (regions.map Region.name) := Region.filterMap_of_found found
      have length := congrArg List.length
        ((filterMap_page oneLined paths summaries table).symm.trans markers)
      rw [List.length_append, Region.length_paired, Region.length_paired] at length
      omega

/-- The table of the page is not settled when the description has a pair of carriage return
and line feed and no markers. -/
theorem exists_unsettled_of_page
    (unmarked : (Text.lines (api.description.toList ++ ['\n'])).filterMap
      (Region.markerOf? (CommentStyle.ofPath "README.md")) = [])
    (hasPair : Region.usesPairs api.description.toList = true) :
    ∃ regions, findRegions (page.path settings.packageName).label
        (page.text settings api table).shown = .ok regions ∧
      ∃ region ∈ regions, ¬ region.IsSettled (page.text settings api table).shown := by
  have own := (ownMarkers_iff page).mp
    ((ownMarkers_page_iff oneLined paths summaries table).mpr unmarked)
  have uses : Region.usesPairs (page.text settings api table).shown = true := by
    by_contra noPair
    have someDescription : api.description ≠ "" := by
      intro isEmpty
      simp [isEmpty, Region.usesPairs, Text.hasPart] at hasPair
    have noneThere := Region.usesPairs_of_isInfix (isInfix_page settings table someDescription)
      (Bool.eq_false_iff.mpr noPair)
    rw [hasPair] at noneThere
    contradiction
  rw [shown_text] at uses ⊢
  obtain ⟨regions, found, bodies⟩ := Outline.findRegions_of_own (isNamed_outline page) own
  obtain ⟨region, rfl⟩ := List.length_eq_one_iff.mp
    ((List.length_map ..).symm.trans (congrArg List.length bodies))
  refine ⟨_, found, region, List.mem_singleton_self _, fun settled => ?_⟩
  have isBody := (Prod.mk.inj (List.singleton_inj.mp bodies)).2
  have paired := settled.paired uses
  rw [isBody] at paired
  exact Text.not_feedsPaired_unlines (by decide) _ paired

end ProjectFile

end ApiWorkshop
