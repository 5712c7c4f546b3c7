import ApiWorkshop.Project.Rendering
import ApiWorkshop.Proofs.Region.Grammar
import ApiWorkshop.Proofs.Region.Settled
import ApiWorkshop.Proofs.Region.Written

/-!
# Outlines of rendered files

A rendered file is put together from lines, with at most one region between them.  What
a definition says can stand in such a line with breaks of its own, and can pass for a
marker there.  As long as none does, the region of the outline is the one region of the
text, and its body is empty or ends in a line feed.
-/

namespace ApiWorkshop

/-- The lines that a text is put together from, those of a region apart from the others.
A line may have breaks in it. -/
inductive Outline where
  | plain (contents : List Text)
  | framed (before : List Text) (name : String) (inside after : List Text)

namespace Outline

/-- The text of an outline for the file at a path. -/
def text (path : String) : Outline → Text
  | plain contents => Text.unlines contents
  | framed before name inside after =>
      Text.unlines before ++ ApiWorkshop.framed path name (Text.unlines inside) ++
        Text.unlines after

/-- The region with its body, if there is one. -/
def region? : Outline → Option (String × Text)
  | plain _ => none
  | framed _ name inside _ => some (name, Text.unlines inside)

/-- The name of the region, if there is one. -/
def name? (outline : Outline) : Option String :=
  outline.region?.map Prod.fst

/-- All lines but those that begin and end the region. -/
def contents : Outline → List Text
  | plain contents => contents
  | framed before _ inside after => before ++ inside ++ after

end Outline

namespace Region

/-- The markers of lines that are put together are those that each of them shows, with the
breaks in it. -/
theorem filterMap_unlines (style : CommentStyle) (contents : List Text) :
    (Text.lines (Text.unlines contents)).filterMap (markerOf? style) =
      contents.flatMap fun content =>
        (Text.lines (content ++ ['\n'])).filterMap (markerOf? style) := by
  induction contents with
  | nil => simp [Text.unlines, Text.lines_nil]
  | cons content contents ih =>
      rw [← List.singleton_append, Text.lines_unlines_append, List.filterMap_append, ih,
        List.flatMap_append, List.flatMap_singleton, Text.unlines, List.flatMap_singleton]

/-- Lines that are put together are unmarked if each of them is. -/
theorem filterMap_unlines_eq_nil_iff {style : CommentStyle} {contents : List Text} :
    (Text.lines (Text.unlines contents)).filterMap (markerOf? style) = [] ↔
      ∀ content ∈ contents, UnmarkedLines style (Text.lines (content ++ ['\n'])) := by
  rw [filterMap_unlines, List.flatMap_eq_nil_iff]
  exact forall₂_congr fun _ _ => List.filterMap_eq_nil_iff

end Region

namespace Outline

variable {path : String} {outline : Outline}

/-- The region of an outline has a name that can stand in a marker. -/
def IsNamed (outline : Outline) : Prop :=
  ∀ name ∈ outline.name?, IsRegionName name

/-- The markers of a text with a region are those of its lines and the two of the region. -/
theorem filterMap_framed {name : String} (isName : IsRegionName name)
    (before inside after : List Text) :
    (Text.lines ((framed before name inside after).text path)).filterMap
        (Region.markerOf? (CommentStyle.ofPath path)) =
      (Text.lines (Text.unlines before)).filterMap (Region.markerOf? (CommentStyle.ofPath path)) ++
        ⟨.opening, name⟩ ::
          ((Text.lines (Text.unlines inside)).filterMap
              (Region.markerOf? (CommentStyle.ofPath path)) ++
            ⟨.closing, name⟩ :: (Text.lines (Text.unlines after)).filterMap
              (Region.markerOf? (CommentStyle.ofPath path))) := by
  have isOpening : Region.markerOf? (CommentStyle.ofPath path) (Marker.line
      (CommentStyle.ofPath path) ⟨.opening, name⟩ ++ ['\n']) = some ⟨.opening, name⟩ :=
    Region.markerOf?_line path isName (.inl rfl)
  have isClosing : Region.markerOf? (CommentStyle.ofPath path) (Marker.line
      (CommentStyle.ofPath path) ⟨.closing, name⟩ ++ ['\n']) = some ⟨.closing, name⟩ :=
    Region.markerOf?_line path isName (.inl rfl)
  rw [text, append_framed_append, Region.lines_written path isName (.inl rfl)
    (Text.endsLine_unlines before) (Text.endsLine_unlines inside), beginMarker, endMarker,
    List.filterMap_append, List.filterMap_cons_some isOpening, List.filterMap_append,
    List.filterMap_cons_some isClosing]

/-- The markers of a text are those of the outline exactly if its other lines are
unmarked. -/
theorem filterMap_eq_paired_iff (named : outline.IsNamed) :
    (Text.lines (outline.text path)).filterMap (Region.markerOf? (CommentStyle.ofPath path)) =
        Region.paired outline.name?.toList ↔
      ∀ content ∈ outline.contents,
        Region.UnmarkedLines (CommentStyle.ofPath path) (Text.lines (content ++ ['\n'])) := by
  cases outline with
  | plain contents => exact Region.filterMap_unlines_eq_nil_iff
  | framed before name inside after =>
      rw [filterMap_framed (named name rfl), contents, List.forall_mem_append,
        List.forall_mem_append, ← Region.filterMap_unlines_eq_nil_iff,
        ← Region.filterMap_unlines_eq_nil_iff, ← Region.filterMap_unlines_eq_nil_iff]
      constructor
      · intro same
        have length := congrArg List.length same
        simp [Region.paired, name?, region?] at length
        simp only [← List.length_eq_zero_iff]
        omega
      · rintro ⟨⟨noneBefore, noneInside⟩, noneAfter⟩
        rw [noneBefore, noneInside, noneAfter]
        rfl

/-- A text whose markers are those of the outline has the region of the outline. -/
theorem findRegions_of_own (named : outline.IsNamed)
    (own : ∀ content ∈ outline.contents,
      Region.UnmarkedLines (CommentStyle.ofPath path) (Text.lines (content ++ ['\n']))) :
    ∃ regions, findRegions path (outline.text path) = .ok regions ∧
      regions.map (fun region => (region.name, region.body (outline.text path))) =
        outline.region?.toList := by
  cases outline with
  | plain contents =>
      have layout : Region.Layout (CommentStyle.ofPath path) (Text.unlines contents)
          (Text.lines (Text.unlines contents)) [] :=
        ⟨by simp, List.filterMap_eq_nil_iff.mp (Region.filterMap_unlines_eq_nil_iff.mpr own),
          by simp, by simp⟩
      exact ⟨[], Region.findRegions_eq_ok_iff.mpr ⟨_, _, layout, rfl⟩, rfl⟩
  | framed before name inside after =>
      rw [contents, List.forall_mem_append, List.forall_mem_append] at own
      have unmarked {part : List Text} (own : ∀ content ∈ part,
          Region.UnmarkedLines (CommentStyle.ofPath path) (Text.lines (content ++ ['\n']))) :
          Region.UnmarkedLines (CommentStyle.ofPath path) (Text.lines (Text.unlines part)) :=
        List.filterMap_eq_nil_iff.mp (Region.filterMap_unlines_eq_nil_iff.mpr own)
      obtain ⟨region, found, isName, isBody⟩ := (Region.layout_written path (named name rfl)
        (.inl rfl) (Text.endsLine_unlines before) (Text.endsLine_unlines inside) (by
          simp only [List.forall_mem_cons]
          exact ⟨unmarked own.1.1, unmarked own.1.2, unmarked own.2, by simp⟩)).exists_region
      rw [Text.lines_flatten] at isBody
      rw [text, append_framed_append]
      refine ⟨[region], found, ?_⟩
      rw [List.map_singleton, isBody, isName]
      rfl

/-- The body of a region of such a text is empty or ends in a line feed. -/
theorem last_body_of_own (named : outline.IsNamed)
    (own : ∀ content ∈ outline.contents,
      Region.UnmarkedLines (CommentStyle.ofPath path) (Text.lines (content ++ ['\n'])))
    {regions : List Region} (found : findRegions path (outline.text path) = .ok regions)
    {region : Region} (member : region ∈ regions) :
    ∀ c ∈ (region.body (outline.text path)).getLast?, c = '\n' := by
  obtain ⟨others, isFound, bodies⟩ := findRegions_of_own named own
  obtain rfl := Except.ok.inj (found.symm.trans isFound)
  have inOutline := List.mem_map_of_mem (f := fun region : Region =>
    (region.name, region.body (outline.text path))) member
  rw [bodies, Option.mem_toList] at inOutline
  cases outline with
  | plain contents => exact absurd inOutline nofun
  | framed before name inside after =>
      rw [← (Prod.mk.inj (Option.some.inj inOutline)).2]
      exact Text.last_unlines inside

end Outline

/-! ## The files of a project -/

namespace LooseText

@[simp]
theorem shown_append (first second : LooseText) :
    shown (first ++ second) = first.shown ++ second.shown :=
  List.map_append

theorem shown_unlines (contents : List LooseText) :
    (unlines contents).shown = Text.unlines (contents.map shown) := by
  rw [unlines, shown, List.map_flatMap, Text.unlines, List.flatMap_map]
  exact List.flatMap_congr fun content _ => shown_append content [.char '\n']

end LooseText

namespace ProjectFile

/-- The name of the region that a file has from its template. -/
def regionName? : ProjectFile → Option String
  | page => some "endpoints"
  | routes => some "routes"
  | schemas => some "schemas"
  | labels => some "translations"
  | ignored | manifest | packageFile => none

/-- The lines that a file of a project is put together from. -/
def outline (settings : ProjectSettings) (api : Api) (table : TranslationTable) :
    ProjectFile → Outline
  | page =>
      .framed ((Overview.introductionLines settings api.description).map LooseText.shown) "endpoints"
        (Overview.tableHead.map String.toList ++ api.endpoints.map Overview.endpointRow) []
  | ignored => .plain (Overview.ignoredLines.map String.toList)
  | manifest => .plain ((Overview.manifestLines settings).map LooseText.shown)
  | packageFile => .plain ((Overview.packageLines settings).map LooseText.shown)
  | routes =>
      .framed (RoutesModule.linesBefore.map String.toList) "routes"
        (RoutesModule.regionLines api.endpoints) (RoutesModule.linesAfter.map String.toList)
  | schemas =>
      .framed (SchemasModule.linesBefore.map String.toList) "schemas"
        (SchemasModule.regionLines api) []
  | labels =>
      .framed (LabelsModule.linesBefore.map String.toList) "translations"
        (LabelsModule.regionLines table) (LabelsModule.linesAfter.map String.toList)

variable {settings : ProjectSettings} {api : Api} {table : TranslationTable}

theorem name?_outline (file : ProjectFile) :
    (file.outline settings api table).name? = file.regionName? := by
  cases file <;> rfl

theorem isNamed_outline (file : ProjectFile) : (file.outline settings api table).IsNamed := by
  intro name isName
  rw [name?_outline] at isName
  cases file with
  | ignored | manifest | packageFile => exact absurd isName (by simp [regionName?])
  | page | routes | schemas | labels =>
      obtain rfl := Option.some.inj isName
      exact ⟨by decide, List.all_eq_true.mp (by decide)⟩

theorem shown_text (file : ProjectFile) :
    (file.text settings api table).shown =
      (file.outline settings api table).text (file.path settings.packageName).label := by
  cases file with
  | page =>
      rw [text, Overview.page, Overview.introduction, LooseText.shown_append,
        LooseText.shown_unlines, LooseText.shown_ofText, Overview.endpointTable, Text.ofLines,
        ← Text.unlines_append]
      exact (List.append_nil _).symm
  | ignored => exact LooseText.shown_ofText _
  | manifest => exact LooseText.shown_unlines _
  | packageFile => exact LooseText.shown_unlines _
  | routes => exact LooseText.shown_ofText _
  | schemas =>
      rw [text, LooseText.shown_ofText, SchemasModule.text]
      exact (List.append_nil _).symm
  | labels => exact LooseText.shown_ofText _

/-- The text of a file has no pair of carriage return and line feed, and the markers of its
region are the only ones in it. -/
structure IsOrdinary (settings : ProjectSettings) (api : Api) (table : TranslationTable)
    (file : ProjectFile) : Prop where
  noPair : Region.usesPairs (file.text settings api table).shown = false
  ownMarkers : (Text.lines (file.text settings api table).shown).filterMap
      (Region.markerOf? (CommentStyle.ofPath (file.path settings.packageName).label)) =
    Region.paired file.regionName?.toList

/-- The markers in the text of a file are those of its region exactly if no line of its
outline shows one. -/
theorem ownMarkers_iff (file : ProjectFile) :
    (Text.lines (file.text settings api table).shown).filterMap
        (Region.markerOf? (CommentStyle.ofPath (file.path settings.packageName).label)) =
      Region.paired file.regionName?.toList ↔
    ∀ content ∈ (file.outline settings api table).contents,
      Region.UnmarkedLines (CommentStyle.ofPath (file.path settings.packageName).label)
        (Text.lines (content ++ ['\n'])) := by
  rw [shown_text, ← name?_outline]
  exact Outline.filterMap_eq_paired_iff (isNamed_outline file)

/-- The regions of an ordinary file are in order and settled. -/
theorem IsOrdinary.exists_settled {file : ProjectFile}
    (ordinary : file.IsOrdinary settings api table) :
    ∃ regions, findRegions (file.path settings.packageName).label
        (file.text settings api table).shown = .ok regions ∧
      ∀ region ∈ regions, region.IsSettled (file.text settings api table).shown := by
  have own := (ownMarkers_iff file).mp ordinary.ownMarkers
  have noPair := ordinary.noPair
  rw [shown_text] at noPair ⊢
  obtain ⟨regions, found, -⟩ := Outline.findRegions_of_own (isNamed_outline file) own
  refine ⟨regions, found, fun region member => ⟨?_, fun isUsed => ?_⟩⟩
  · exact Outline.last_body_of_own (isNamed_outline file) own found member
  · rw [noPair] at isUsed
    contradiction

/-- An ordinary file without a region of its own has none. -/
theorem IsOrdinary.findRegions_eq_nil {file : ProjectFile}
    (ordinary : file.IsOrdinary settings api table) (noRegion : file.regionName? = none) :
    findRegions (file.path settings.packageName).label (file.text settings api table).shown =
      .ok [] := by
  have own := (ownMarkers_iff file).mp ordinary.ownMarkers
  rw [shown_text]
  obtain ⟨regions, found, bodies⟩ := Outline.findRegions_of_own (isNamed_outline file) own
  have isNone : (file.outline settings api table).region? = none :=
    Option.map_eq_none_iff.mp ((name?_outline file).trans noRegion)
  rw [isNone] at bodies
  rw [found, List.map_eq_nil_iff.mp bodies]

end ProjectFile

end ApiWorkshop
