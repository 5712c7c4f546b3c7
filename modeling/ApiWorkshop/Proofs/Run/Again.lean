import ApiWorkshop.Proofs.Project.Pages
import ApiWorkshop.Proofs.Run.Conflicts
import ApiWorkshop.Proofs.Run.Outputs
import ApiWorkshop.Proofs.Run.Repeated

/-!
# Regenerating again

A regeneration of a project whose files are not there yet creates all of them.  The next
one reads the same settings and definitions, so it renders the same files and finds every
one of them on disk as it was rendered.  What it marks as a change in a file with a region
comes from a text with pairs of carriage return and line feed or with markers of its own.
-/

namespace ApiWorkshop

open FileTree

/-! ## Outputs that are new -/

/-- Outputs with places of their own at which nothing stands.  None of them is a new
definition file of the project, and a new directory with the name of one can be looked
up. -/
structure FreshOutputs (around : Surroundings) (request : GenerateRequest) (tree : FileTree)
    (paths : List LooseText) : Prop where
  apart : (paths.map (outputPlace around.workingDirectory request.root)).Nodup
  absent : ∀ path ∈ paths, tree.at? (outputPlace around.workingDirectory request.root path) = none
  noDefinition : ∀ stored place name,
    loadProject tree around.workingDirectory request.root = .ok stored →
    tree.locate around.workingDirectory (Path.ofText (request.source around stored)) = .ok place →
    Sources.isDefinitionName name = true →
    ∀ path ∈ paths, outputPlace around.workingDirectory request.root path ≠ place ++ [name]
  shortWays : ∀ stored place name,
    loadProject tree around.workingDirectory request.root = .ok stored →
    tree.locate around.workingDirectory (Path.ofText (request.source around stored)) = .ok place →
    Sources.isDefinitionName name = true → tree.at? (place ++ [name]) = none →
    ∀ path ∈ paths,
      place ++ [name] ∈ wayOf around.workingDirectory (request.root.join (Path.ofText path)) →
      IsShort ((Path.ofText (request.source around stored)).join
        ⟨.relative, [LooseText.ofString name]⟩)

/-- No definition file is new after the outputs were laid. -/
theorem FreshOutputs.noneNew {around : Surroundings} {request : GenerateRequest}
    {tree after : FileTree} {rendered : Entries LooseText LooseText}
    {documents : Entries LooseText Draft} {snapshot : Snapshot}
    (outputs : FreshOutputs around request tree (Entries.keys rendered ++ Entries.keys documents))
    (laid : Laid around.workingDirectory request.root (Plan.writes rendered snapshot documents) tree
      after) (stored : ProjectSettings)
    (loaded : loadProject tree around.workingDirectory request.root = .ok stored) :
    Sources.NoneNew around.workingDirectory (Path.ofText (request.source around stored)) tree
      after := by
  intro place name located isDefinition absent isThere
  have apart : ∀ write ∈ Plan.writes rendered snapshot documents,
      place ++ [name] ≠ outputPlace around.workingDirectory request.root write.1 :=
    fun write member same => outputs.noDefinition stored place name loaded located isDefinition
      write.1 (Plan.mem_paths_of_mem_writes member) same.symm
  rcases laid.elsewhere apart with same | ⟨-, isDirectory, write, member, onWay⟩
  · exact absurd (same.trans absent) isThere
  · exact ⟨isDirectory, outputs.shortWays stored place name loaded located isDefinition absent
      write.1 (Plan.mem_paths_of_mem_writes member) onWay⟩

/-! ## The second run -/

theorem exists_of_generateProject {around : Surroundings} {request : GenerateRequest}
    {tree after : FileTree} {result : ProjectResult}
    (isRun : generateProject around request tree = (.ok result, after))
    (notDry : request.dryRun = false) :
    ∃ operations snapshot, request.plan around tree = .ok (operations, snapshot) ∧
      applyOperations around.faults around.workingDirectory request.root operations snapshot tree =
        (.ok result.report, after) := by
  have regenerated := regenerates around request tree
  rw [isRun] at regenerated
  cases regenerated with
  | dry _ isDry => simp [isDry] at notDry
  | applied isPlan _ isApplied => exact ⟨_, _, isPlan, isApplied⟩

/-- What the next run finds: every candidate stands at its place, and the same files are
rendered. -/
structure FoundAgain (around : Surroundings) (request : GenerateRequest) (after : FileTree)
    (rendered : Entries LooseText LooseText) (documents : Entries LooseText Draft)
    (later : Snapshot) : Prop where
  wellFormed : after.WellFormed
  isHere : after.at? around.workingDirectory = some .directory
  places : Places after around.workingDirectory request.root
    (Entries.keys rendered ++ Entries.keys documents)
    (outputPlace around.workingDirectory request.root)
  isRendered : request.render around after = .ok (rendered, documents)
  captured : Snapshot.capture after around.workingDirectory request.root
    (Entries.keys rendered ++ Entries.keys documents) = .ok later
  held : ∀ path candidate, (path, candidate) ∈ Plan.candidates rendered documents →
    candidate.IsHeld later path

/-- A run without failures on a tree without its outputs leaves them for the next one to
find. -/
theorem foundAgain_of_run {around : Surroundings} {request : GenerateRequest}
    {tree after : FileTree} {result : ProjectResult}
    (allOrNothing : ∀ path, (around.faults path).AllOrNothing) (wellFormed : tree.WellFormed)
    (distinct : (Entries.keys tree).Nodup)
    (isHere : tree.at? around.workingDirectory = some .directory)
    (fresh : ∀ rendered documents, request.render around tree = .ok (rendered, documents) →
      FreshOutputs around request tree (Entries.keys rendered ++ Entries.keys documents))
    (isRun : generateProject around request tree = (.ok result, after))
    (notDry : request.dryRun = false) (noneFailed : result.report.failures = []) :
    ∃ rendered documents later, request.render around tree = .ok (rendered, documents) ∧
      FoundAgain around request after rendered documents later := by
  obtain ⟨operations, snapshot, isPlan, isApplied⟩ := exists_of_generateProject isRun notDry
  obtain ⟨rendered, documents, isRendered, captured, planned⟩ :=
    GenerateRequest.plan_eq_ok_iff.mp isPlan
  have outputs := fresh rendered documents isRendered
  have isBlank := Snapshot.isBlank_of_capture outputs.absent captured
  obtain ⟨laid, afterFormed, afterDistinct⟩ := Plan.laid_of_applyOperations allOrNothing wellFormed
    distinct isHere outputs.apart.of_map planned isBlank.allReadable isApplied noneFailed
  obtain ⟨places, held⟩ := Plan.held_of_laid isBlank outputs.apart laid
  have kept := laid.kept fun write member =>
    outputs.absent write.1 (Plan.mem_paths_of_mem_writes member)
  have isRenderedAgain := GenerateRequest.render_of_kept distinct afterDistinct kept
    (fun stored loaded => outputs.noneNew laid stored loaded) isRendered
  have capturedAgain := Plan.capture_of_held afterFormed places fun path candidate member =>
    (held path candidate member).2.1
  refine ⟨rendered, documents, _, isRendered, afterFormed, laid.keeps isHere, places,
    isRenderedAgain, capturedAgain, fun path candidate member => ?_⟩
  obtain ⟨whole, -, isThere⟩ := held path candidate member
  have inPaths := Plan.mem_paths_of_mem_candidates member
  have isFile : after.fileAt? (outputPlace around.workingDirectory request.root path) =
      some (.text candidate.draft.text) := by
    rw [fileAt?, isThere]
  exact ⟨whole, Snapshot.isUnreadable_of_fileAt? inPaths isFile,
    (Snapshot.text?_ofNodes_eq_some_iff inPaths).mpr isFile⟩

namespace FoundAgain

variable {around : Surroundings} {request : GenerateRequest} {after : FileTree}
  {rendered : Entries LooseText LooseText} {documents : Entries LooseText Draft}
  {later : Snapshot}

/-- The next run has the operations of its plan. -/
theorem exists_report (found : FoundAgain around request after rendered documents later)
    (allOrNothing : ∀ path, (around.faults path).AllOrNothing) (notDry : request.dryRun = false)
    {operations : List FileOperation}
    (planned : plan rendered later documents = .ok operations) :
    ∃ result last, generateProject around request after = (.ok result, last) ∧
      result.report.operations = operations := by
  have isPlan : request.plan around after = .ok (operations, later) :=
    GenerateRequest.plan_eq_ok_iff.mpr
      ⟨rendered, documents, found.isRendered, found.captured, planned⟩
  rcases generateProject_of_plan isPlan notDry with
    ⟨report, last, isApplied, isRun⟩ | ⟨error, last, isApplied, -⟩
  · obtain ⟨isReport, -⟩ := Plan.history_of_applyOperations allOrNothing found.wellFormed
      found.isHere found.places planned isApplied
    exact ⟨_, last, isRun, isReport⟩
  · have stopped := Plan.stopped_of_applyOperations allOrNothing found.wellFormed found.isHere
      found.places planned isApplied
    obtain ⟨write, isWrite, notWhole⟩ := stopped.exists_notWhole
    obtain ⟨candidate, inCandidates, isDraft⟩ := Plan.mem_writes_iff.mp isWrite
    have isWhole := (Plan.Candidate.isWhole_iff candidate).mpr
      (found.held write.1 candidate inCandidates).1
    rw [Plan.whole_of_plannedDraft isWhole isDraft] at notWhole
    contradiction

/-- The next run repeats what it finds, unless a rendered text has its markers in disorder:
then it ends with a conflict. -/
theorem repeats_or_conflict (found : FoundAgain around request after rendered documents later)
    (allOrNothing : ∀ path, (around.faults path).AllOrNothing) (notDry : request.dryRun = false) :
    (∃ again last, generateProject around request after = (.ok again, last) ∧
        Plan.Repeats rendered documents again.report.operations) ∨
      (∃ conflict, (generateProject around request after).1 = .error (.conflict conflict)) ∧
        ∃ path text, (path, text) ∈ rendered ∧
          ∃ conflict, findRegions path.label text.shown = .error conflict := by
  cases planned : plan rendered later documents with
  | error conflict =>
      obtain ⟨⟨path, text⟩, isText, other, disordered⟩ :=
        Plan.exists_plan_eq_error_iff.mp ⟨conflict, planned⟩
      refine .inr ⟨⟨conflict, ?_⟩, path, text, isText, other, disordered.disorder⟩
      exact generateProject_eq_conflict_iff.mpr (GenerateRequest.plan_eq_conflict_iff.mpr
        ⟨rendered, documents, later, found.isRendered, found.captured, planned⟩)
  | ok operations =>
      obtain ⟨again, last, isAgain, rfl⟩ := found.exists_report allOrNothing notDry planned
      exact .inl ⟨again, last, isAgain, Plan.repeats_of_plan found.held planned⟩

end FoundAgain

/-- A repeated operation on a project creates nothing.  It is marked as a change only if it
leaves a file alone or patches a file that is not ordinary. -/
theorem Plan.IsRepeated.change {settings : ProjectSettings} {api : Api} {table : TranslationTable}
    {documents : Entries LooseText Draft} {operation : FileOperation}
    (repeated : IsRepeated (renderProject settings api table) documents operation) :
    operation.change ≠ .create ∧
      (operation.changed = true → operation.change = .skip ∨
        operation.change = .patch ∧ ∃ file : ProjectFile,
          operation.path = file.path settings.packageName ∧
            ¬ file.IsOrdinary settings api table) := by
  cases repeated with
  | document => exact ⟨by simp [FileOperation.regenerate], by simp [FileOperation.regenerate]⟩
  | plain => exact ⟨by simp [FileOperation.skip], fun _ => .inl rfl⟩
  | patched isText found member changes_iff =>
      refine ⟨by simp [FileOperation.patch], fun isChange => .inr ⟨rfl, ?_⟩⟩
      obtain ⟨file, isPath, rfl⟩ := mem_renderProject_iff.mp isText
      refine ⟨file, isPath.symm, fun ordinary => changes_iff.mp isChange ?_⟩
      obtain ⟨regions, areRegions, settled⟩ := ordinary.exists_settled
      rw [isPath, found] at areRegions
      obtain rfl := Except.ok.inj areRegions
      exact settled _ member

/-- A run on a tree that a run without failures left, in which none of the outputs was
before, repeats what it finds and creates nothing.  It marks as a change only what it
leaves alone and patches of files that are not ordinary; and only a rendered text with
markers in disorder, which is not ordinary either, ends it. -/
theorem generateProject_again {around : Surroundings} {request : GenerateRequest}
    {tree after : FileTree} {result : ProjectResult}
    (allOrNothing : ∀ path, (around.faults path).AllOrNothing) (wellFormed : tree.WellFormed)
    (distinct : (Entries.keys tree).Nodup)
    (isHere : tree.at? around.workingDirectory = some .directory)
    (fresh : ∀ rendered documents, request.render around tree = .ok (rendered, documents) →
      FreshOutputs around request tree (Entries.keys rendered ++ Entries.keys documents))
    (isRun : generateProject around request tree = (.ok result, after))
    (notDry : request.dryRun = false) (noneFailed : result.report.failures = []) :
    ∃ settings api table documents, request.gather around tree = .ok (settings, api, table) ∧
      request.render around tree = .ok (renderProject settings api table, documents) ∧
      match (generateProject around request after).1 with
      | .ok again =>
          Plan.Repeats (renderProject settings api table) documents again.report.operations ∧
          ∀ operation ∈ again.report.operations, operation.change ≠ .create ∧
            (operation.changed = true → operation.change = .skip ∨
              operation.change = .patch ∧ ∃ file : ProjectFile,
                operation.path = file.path settings.packageName ∧
                  ¬ file.IsOrdinary settings api table)
      | .error error => (∃ conflict, error = .conflict conflict) ∧
          ∃ file : ProjectFile, ¬ file.IsOrdinary settings api table ∧
            ∃ conflict, findRegions (file.path settings.packageName).label
              (file.text settings api table).shown = .error conflict := by
  obtain ⟨rendered, documents, later, isRendered, found⟩ := foundAgain_of_run allOrNothing
    wellFormed distinct isHere fresh isRun notDry noneFailed
  obtain ⟨settings, api, table, gathered, -, rfl⟩ := GenerateRequest.render_eq_ok_iff.mp isRendered
  refine ⟨settings, api, table, documents, gathered, isRendered, ?_⟩
  rcases found.repeats_or_conflict allOrNothing notDry with ⟨again, last, isAgain, repeats⟩ |
    ⟨⟨conflict, isConflict⟩, path, text, isText, other, disorder⟩
  · rw [isAgain]
    exact ⟨repeats, fun operation member => ((repeats.mem_iff operation).mp member).change⟩
  · rw [isConflict]
    obtain ⟨file, rfl, rfl⟩ := mem_renderProject_iff.mp isText
    refine ⟨⟨conflict, rfl⟩, file, fun ordinary => ?_, other, disorder⟩
    obtain ⟨regions, areRegions, -⟩ := ordinary.exists_settled
    exact absurd (areRegions.symm.trans disorder) nofun

/-! ## Fresh projects -/

namespace FreshProject

/-- What the definition of a fresh project says of its API: nothing, two lines with a pair
of carriage return and line feed between them, or a marker. -/
inductive Description where
  | nothing
  | pair
  | marker

def Description.all : List Description := [nothing, pair, marker]

theorem Description.mem_all (description : Description) : description ∈ all := by
  cases description <;> simp [all]

def Description.text : Description → String
  | nothing => ""
  | pair => "a\r\nb"
  | marker => "<!-- specforge:begin endpoints -->"

def Description.definition : Description → Text
  | nothing => []
  | pair => "description = \"a\\r\\nb\"".toList
  | marker => "description = \"<!-- specforge:begin endpoints -->\"".toList

/-- A project with settings and a definition. -/
def tree (description : Description) : FileTree :=
  [(["specforge.json"], .file (.text "\x7b\"name\":\"p\",\"package\":\"p\"\x7d".toList)),
    (["config"], .directory), (["config", "openapi"], .directory),
    (["config", "openapi", "a.toml"], .file (.text description.definition))]

def around : Surroundings where
  now := ⟨⟨2000, 1, 1, .refl true⟩, .midnight, none⟩

def request : GenerateRequest := { root := ⟨.relative, []⟩ }

def settings : ProjectSettings := { name := "p", package := some "p" }

def api (description : Description) : Api :=
  { title := settings.name, version := settings.version, description := description.text
    tags := [], endpoints := [], schemas := [], translations := [] }

/-- The outputs of the project have places of their own, none of them in the directory of
its definition, and all that they show of the settings has bytes and is on one line. -/
theorem evaluated_settings :
    ((outputPaths settings).map (outputPlace [] request.root)).Nodup ∧
    (∀ path ∈ outputPaths settings,
      ∀ location ∈ wayOf [] (request.root.join (Path.ofText path)),
        location.dropLast ≠ ["config", "openapi"]) ∧
    (∀ file ∈ ProjectFile.all, (file.shownSettings settings).all LooseText.isWhole = true) ∧
    ∀ file ∈ ProjectFile.all, ∀ text ∈ file.shownSettings settings,
      text.shown.any Text.isLineBreak = false := by
  decide +kernel

/-- Whatever the definition says of the API, the project is gathered, none of its outputs
is there, and creating them leads to no failure. -/
theorem evaluated : ∀ description ∈ Description.all,
    gathers around request (tree description) settings (api description) = true ∧
    (∀ path ∈ outputPaths settings,
      (tree description).at? (outputPlace [] request.root path) = none) ∧
    (tree description).locate [] (Path.ofText
      (request.root.join (Path.ofText settings.apiDirectory)).text) = .ok ["config", "openapi"] ∧
    (∀ entry ∈ tree description, ∀ name ∈ entry.1.getLast?,
      (tree description).at? entry.1.dropLast = some .directory ∧ IsName name) ∧
    (Entries.keys (tree description)).Nodup ∧
    (creationRun around request (tree description) settings (api description) []).toOption.any
      (fun run => run.1.toOption.any fun report => report.failures.isEmpty) = true := by
  decide +kernel

section

variable (description : Description)

theorem gather_tree :
    request.gather around (tree description) = .ok (settings, api description, []) :=
  gather_of_gathers rfl (evaluated description description.mem_all).1

theorem absent : ∀ path ∈ outputPaths settings,
    (tree description).at? (outputPlace [] request.root path) = none :=
  (evaluated description description.mem_all).2.1

/-- The settings of the project name the directory of its definition. -/
theorem locate_source {stored : ProjectSettings}
    (loaded : loadProject (tree description) [] request.root = .ok stored) :
    (tree description).locate [] (Path.ofText (request.source around stored)) =
      .ok ["config", "openapi"] := by
  obtain ⟨other, -, isLoaded, -, resolved, -⟩ :=
    GenerateRequest.gather_eq_ok_iff.mp (gather_tree description)
  obtain rfl := Except.ok.inj (loaded.symm.trans isLoaded)
  rw [GenerateRequest.source, resolved]
  exact (evaluated description description.mem_all).2.2.1

theorem freshOutputs : FreshOutputs around request (tree description) (outputPaths settings) := by
  obtain ⟨nodup, apart, -⟩ := evaluated_settings
  refine ⟨nodup, absent description,
    fun stored place name loaded located _ path member same => ?_,
    fun stored place name loaded located _ _ path member onWay => ?_⟩
  · obtain rfl := Except.ok.inj (located.symm.trans (locate_source description loaded))
    refine absurd ?_ (apart path member _ (destination_mem_wayOf _ _))
    exact (congrArg List.dropLast same).trans (by simp)
  · obtain rfl := Except.ok.inj (located.symm.trans (locate_source description loaded))
    exact absurd (by simp) (apart path member _ onWay)

theorem wellFormed : (tree description).WellFormed :=
  wellFormed_of_entries (evaluated description description.mem_all).2.2.2.1

theorem distinct : (Entries.keys (tree description)).Nodup :=
  (evaluated description description.mem_all).2.2.2.2.1

/-- The first run creates all outputs. -/
theorem exists_first : ∃ documents first after,
    request.render around (tree description) =
      .ok (renderProject settings (api description) [], documents) ∧
    Entries.keys (renderProject settings (api description) []) ++ Entries.keys documents =
      outputPaths settings ∧
    generateProject around request (tree description) = (.ok first, after) ∧
      first.report.failures = [] := by
  obtain ⟨-, -, -, -, -, isCreated⟩ := evaluated description description.mem_all
  obtain ⟨⟨outcome, after⟩, isRun, passes⟩ := exists_of_any_toOption isCreated
  obtain ⟨report, rfl, noneFailed⟩ := exists_of_any_toOption passes
  obtain ⟨-, -, whole, -⟩ := evaluated_settings
  obtain ⟨documents, isRendered, areKeys, isFirst⟩ := exists_of_creationRun
    (gather_tree description) (fun file => whole file file.mem_all) (by decide)
    (absent description) rfl isRun
  exact ⟨documents, _, after, isRendered, areKeys, isFirst, List.isEmpty_iff.mp noneFailed⟩

theorem fresh : ∀ rendered documents,
    request.render around (tree description) = .ok (rendered, documents) →
      FreshOutputs around request (tree description)
        (Entries.keys rendered ++ Entries.keys documents) := by
  intro rendered documents isRendered
  obtain ⟨others, -, -, areOthers, arePaths, -⟩ := exists_first description
  obtain ⟨sameRendered, sameDocuments⟩ :=
    Prod.mk.inj (Except.ok.inj (isRendered.symm.trans areOthers))
  rw [sameRendered, sameDocuments, arePaths]
  exact freshOutputs description

/-- The second run finds what the first one made. -/
theorem exists_foundAgain : ∃ documents first after later,
    generateProject around request (tree description) = (.ok first, after) ∧
      first.report.failures = [] ∧
      FoundAgain around request after (renderProject settings (api description) []) documents
        later := by
  obtain ⟨documents, first, after, isRendered, -, isFirst, noneFailed⟩ := exists_first description
  obtain ⟨others, otherDocuments, later, areOthers, found⟩ := foundAgain_of_run
    (fun _ => WriteFaults.allOrNothing_none) (wellFormed description) (distinct description) rfl
    (fresh description) isFirst rfl noneFailed
  obtain ⟨same, -⟩ := Prod.mk.inj (Except.ok.inj (isRendered.symm.trans areOthers))
  exact ⟨otherDocuments, first, after, later, isFirst, noneFailed, same ▸ found⟩

end

theorem isOneLined_settings : settings.IsOneLined := by
  obtain ⟨-, -, -, shown⟩ := evaluated_settings
  have unbroken (file : ProjectFile) {text : LooseText}
      (isShown : text ∈ file.shownSettings settings) :
      ∀ c ∈ text.shown, Text.isLineBreak c = false :=
    Text.eq_false_of_mem (shown file file.mem_all text isShown)
  constructor
  case packageName => exact unbroken .manifest (by simp [ProjectFile.shownSettings])
  all_goals exact unbroken .page (by simp [ProjectFile.shownSettings])

/-- Without a description all files of the project are ordinary. -/
theorem isOrdinary (file : ProjectFile) : file.IsOrdinary settings (api .nothing) [] := by
  refine ProjectFile.isOrdinary_of_oneLined isOneLined_settings ?_ [] file
  constructor <;> simp [api, Description.text, Api.records]

/-- The description stands on the page only. -/
theorem text_eq_of_ne_page (description : Description) {file : ProjectFile}
    (notPage : file ≠ .page) :
    file.text settings (api description) [] = file.text settings (api .nothing) [] := by
  cases file with
  | page => exact absurd rfl notPage
  | ignored | manifest | packageFile | routes | schemas | labels => rfl

/-- A marker in the description is one without a partner on the page. -/
theorem exists_conflict_of_marker : ∃ conflict,
    findRegions (ProjectFile.page.path settings.packageName).label
      (ProjectFile.page.text settings (api .marker) []).shown = .error conflict :=
  ProjectFile.exists_conflict_of_page isOneLined_settings (by simp [api]) (by simp [api]) []
    (by decide +kernel)

/-- A pair in the description leaves the table of the page unsettled. -/
theorem exists_unsettled_of_pair : ∃ regions,
    findRegions (ProjectFile.page.path settings.packageName).label
        (ProjectFile.page.text settings (api .pair) []).shown = .ok regions ∧
      ∃ region ∈ regions,
        ¬ region.IsSettled (ProjectFile.page.text settings (api .pair) []).shown :=
  ProjectFile.exists_unsettled_of_page isOneLined_settings (by simp [api]) (by simp [api]) []
    (by decide +kernel) (by decide +kernel)

/-- With a pair in the description all markers are still in order. -/
theorem exists_regions_of_pair (file : ProjectFile) : ∃ regions,
    findRegions (file.path settings.packageName).label
      (file.text settings (api .pair) []).shown = .ok regions := by
  by_cases isPage : file = .page
  · obtain ⟨regions, found, -⟩ := exists_unsettled_of_pair
    rw [isPage]
    exact ⟨regions, found⟩
  · obtain ⟨regions, found, -⟩ := (isOrdinary file).exists_settled
    rw [text_eq_of_ne_page .pair isPage]
    exact ⟨regions, found⟩

end FreshProject

/-- The project without a description is run again without a change but the operations on
files that are left alone. -/
theorem generateProject_again_of_freshProject :
    ∃ first after second last,
      generateProject FreshProject.around FreshProject.request (FreshProject.tree .nothing) =
        (.ok first, after) ∧
      generateProject FreshProject.around FreshProject.request after = (.ok second, last) ∧
      (∀ path ∈ outputPaths FreshProject.settings,
        ∃ operation ∈ second.report.operations, operation.path = path) ∧
      ∀ operation ∈ second.report.operations, operation.change ≠ .create ∧
        (operation.changed = true → operation.change = .skip) := by
  obtain ⟨documents, first, after, isRendered, arePaths, isFirst, noneFailed⟩ :=
    FreshProject.exists_first .nothing
  obtain ⟨settings, api, table, otherDocuments, gathered, areOthers, again⟩ := generateProject_again
    (fun _ => WriteFaults.allOrNothing_none) (FreshProject.wellFormed .nothing)
    (FreshProject.distinct .nothing) rfl (FreshProject.fresh .nothing) isFirst rfl noneFailed
  obtain ⟨same, rest⟩ := Prod.mk.inj
    (Except.ok.inj ((FreshProject.gather_tree .nothing).symm.trans gathered))
  obtain ⟨sameApi, sameTable⟩ := Prod.mk.inj rest
  rw [← same, ← sameApi, ← sameTable] at again areOthers
  obtain ⟨-, sameDocuments⟩ := Prod.mk.inj (Except.ok.inj (isRendered.symm.trans areOthers))
  rw [← sameDocuments] at again
  generalize isSecond : generateProject FreshProject.around FreshProject.request after = outcome
    at again
  obtain ⟨answer, last⟩ := outcome
  cases answer with
  | error error =>
      obtain ⟨-, file, notOrdinary, -⟩ := again
      exact absurd (FreshProject.isOrdinary file) notOrdinary
  | ok second =>
      refine ⟨first, after, second, last, isFirst, isSecond, arePaths ▸ again.1.covers,
        fun operation member => ?_⟩
      obtain ⟨notCreated, changes⟩ := again.2 operation member
      refine ⟨notCreated, fun isChange => ?_⟩
      rcases changes isChange with isSkip | ⟨-, file, -, notOrdinary⟩
      · exact isSkip
      · exact absurd (FreshProject.isOrdinary file) notOrdinary

/-- The second run of the project is not without a change: a file without regions is left
alone by an operation that is marked as one. -/
theorem marked_after_second_run :
    FreshOutputs FreshProject.around FreshProject.request (FreshProject.tree .nothing)
      (outputPaths FreshProject.settings) ∧
    ∃ first after,
      generateProject FreshProject.around FreshProject.request (FreshProject.tree .nothing) =
        (.ok first, after) ∧
      first.report.failures = [] ∧
      ¬ ∃ second last,
        generateProject FreshProject.around FreshProject.request after = (.ok second, last) ∧
        ∀ operation ∈ second.report.operations,
          operation.change ≠ .create ∧ operation.changed = false := by
  refine ⟨FreshProject.freshOutputs .nothing, ?_⟩
  obtain ⟨documents, first, after, later, isFirst, noneFailed, found⟩ :=
    FreshProject.exists_foundAgain .nothing
  refine ⟨first, after, isFirst, noneFailed, ?_⟩
  rintro ⟨second, last, isSecond, unmarked⟩
  rcases found.repeats_or_conflict (fun _ => WriteFaults.allOrNothing_none) rfl with
    ⟨again, lastAgain, isAgain, repeats⟩ | ⟨⟨conflict, isConflict⟩, -⟩
  · obtain rfl := Except.ok.inj (Prod.mk.inj (isSecond.symm.trans isAgain)).1
    obtain ⟨operation, member, -, -, isChange⟩ := repeats.exists_skip
      (mem_renderProject_iff.mpr ⟨.ignored, rfl, rfl⟩)
      ((FreshProject.isOrdinary .ignored).findRegions_eq_nil rfl)
    exact absurd ((unmarked operation member).2.symm.trans isChange) Bool.false_ne_true
  · rw [isSecond] at isConflict
    exact absurd isConflict nofun

/-- A marker in the description of the API ends the second run with a conflict. -/
theorem conflict_after_marker :
    ∃ first after,
      generateProject FreshProject.around FreshProject.request (FreshProject.tree .marker) =
        (.ok first, after) ∧
      first.report.failures = [] ∧
      ∃ conflict, (generateProject FreshProject.around FreshProject.request after).1 =
        .error (.conflict conflict) := by
  obtain ⟨documents, first, after, later, isFirst, noneFailed, found⟩ :=
    FreshProject.exists_foundAgain .marker
  refine ⟨first, after, isFirst, noneFailed, ?_⟩
  rcases found.repeats_or_conflict (fun _ => WriteFaults.allOrNothing_none) rfl with
    ⟨again, last, -, repeats⟩ | ⟨isConflict, -⟩
  · obtain ⟨conflict, disorder⟩ := FreshProject.exists_conflict_of_marker
    exact absurd disorder
      (repeats.no_conflict (mem_renderProject_iff.mpr ⟨.page, rfl, rfl⟩) conflict)
  · exact isConflict

/-- With a pair of carriage return and line feed in the description of the API the second
run patches the page. -/
theorem patched_after_pair :
    ∃ first after second last,
      generateProject FreshProject.around FreshProject.request (FreshProject.tree .pair) =
        (.ok first, after) ∧
      first.report.failures = [] ∧
      generateProject FreshProject.around FreshProject.request after = (.ok second, last) ∧
      ∃ operation ∈ second.report.operations,
        operation.path = ProjectFile.page.path FreshProject.settings.packageName ∧
          operation.change = .patch ∧ operation.changed = true := by
  obtain ⟨documents, first, after, later, isFirst, noneFailed, found⟩ :=
    FreshProject.exists_foundAgain .pair
  rcases found.repeats_or_conflict (fun _ => WriteFaults.allOrNothing_none) rfl with
    ⟨second, last, isSecond, repeats⟩ | ⟨-, path, text, isText, conflict, disorder⟩
  · obtain ⟨regions, areRegions, region, member, notSettled⟩ :=
      FreshProject.exists_unsettled_of_pair
    exact ⟨first, after, second, last, isFirst, noneFailed, isSecond, repeats.exists_patch
      (mem_renderProject_iff.mpr ⟨.page, rfl, rfl⟩) areRegions member notSettled⟩
  · obtain ⟨file, rfl, rfl⟩ := mem_renderProject_iff.mp isText
    obtain ⟨regions, areRegions⟩ := FreshProject.exists_regions_of_pair file
    exact absurd (areRegions.symm.trans disorder) nofun

end ApiWorkshop
