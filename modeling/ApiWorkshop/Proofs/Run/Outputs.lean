import ApiWorkshop.Proofs.Project.Paths
import ApiWorkshop.Proofs.Project.Rendered
import ApiWorkshop.Proofs.Run.Fresh
import ApiWorkshop.Proofs.Run.Inputs

/-!
# Creating the outputs of a project

The outputs of a project are its rendered files and its two documents.  Where none of
them is there and the rendered files have bytes, a regeneration comes to what the
operations come to that create them.
-/

namespace ApiWorkshop

/-- The paths of the outputs of a project. -/
def outputPaths (settings : ProjectSettings) : List LooseText :=
  (ProjectFile.all.map fun file => file.path settings.packageName) ++
    [settings.openapiOutput, settings.translationsOutput]

/-- Whether a regeneration gathers settings without extras, an API and an empty table. -/
def gathers (around : Surroundings) (request : GenerateRequest) (tree : FileTree)
    (settings : ProjectSettings) (api : Api) : Bool :=
  (request.gather around tree).toOption.any fun found =>
    decide (found.1.name = settings.name ∧ found.1.package = settings.package ∧
      found.1.version = settings.version ∧ found.1.apiDirectory = settings.apiDirectory ∧
      found.1.openapiOutput = settings.openapiOutput ∧
      found.1.translationsOutput = settings.translationsOutput ∧ found.1.extras.isEmpty = true ∧
      found.2.1 = api ∧ found.2.2.isEmpty = true)

theorem gather_of_gathers {around : Surroundings} {request : GenerateRequest} {tree : FileTree}
    {settings : ProjectSettings} (noExtras : settings.extras = []) {api : Api}
    (passes : gathers around request tree settings api = true) :
    request.gather around tree = .ok (settings, api, []) := by
  obtain ⟨⟨⟨name, package, version, apiDirectory, openapiOutput, translationsOutput, extras⟩, found,
    table⟩, isGathered, passes⟩ := exists_of_any_toOption passes
  cases settings
  simp only [decide_eq_true_eq, List.isEmpty_iff] at passes noExtras
  obtain ⟨rfl, rfl, rfl, rfl, rfl, rfl, rfl, rfl, rfl⟩ := passes
  rw [isGathered, noExtras]

/-- The documents of a project have the two paths of its settings. -/
theorem keys_of_compileDocuments {settings : ProjectSettings} {api : Api}
    {table : TranslationTable} {documents : Entries LooseText Draft}
    (areDocuments : compileDocuments settings api table = .ok documents)
    (apart : settings.openapiOutput ≠ settings.translationsOutput) :
    Entries.keys documents = [settings.openapiOutput, settings.translationsOutput] := by
  obtain ⟨openapi, translations, -, rfl⟩ := exists_of_compileDocuments areDocuments
  rw [Entries.ofPairs_of_nodup (by simpa [Entries.keys] using apart)]
  rfl

/-- What creating the outputs of a project comes to if its rendered files have bytes. -/
def creationRun (around : Surroundings) (request : GenerateRequest) (tree : FileTree)
    (settings : ProjectSettings) (api : Api) (table : TranslationTable) :
    Except RunError (Except MergeError Report × FileTree) := do
  let rendered := ProjectFile.all.map fun file =>
    (file.path settings.packageName, file.text settings api table)
  let documents ← compileDocuments settings api table
  let snapshot ← Sources.asked (Snapshot.capture tree around.workingDirectory request.root
    (Entries.keys rendered ++ Entries.keys documents))
  .ok (applyOperations around.faults around.workingDirectory request.root
    (Plan.creations rendered documents) snapshot tree)

/-- A regeneration where none of the outputs is there comes to what creating them comes
to. -/
theorem exists_of_creationRun {around : Surroundings} {request : GenerateRequest}
    {tree after : FileTree} {settings : ProjectSettings} {api : Api} {table : TranslationTable}
    (gathered : request.gather around tree = .ok (settings, api, table))
    (whole : ∀ file : ProjectFile, (file.shownSettings settings).all LooseText.isWhole = true)
    (apart : settings.openapiOutput ≠ settings.translationsOutput)
    (absent : ∀ path ∈ outputPaths settings,
      tree.at? (outputPlace around.workingDirectory request.root path) = none)
    (notDry : request.dryRun = false) {outcome : Except MergeError Report}
    (isRun : creationRun around request tree settings api table = .ok (outcome, after)) :
    ∃ documents,
      request.render around tree = .ok (renderProject settings api table, documents) ∧
      Entries.keys (renderProject settings api table) ++ Entries.keys documents =
        outputPaths settings ∧
      generateProject around request tree =
        (match outcome with
          | .ok report => .ok { root := request.root, report }
          | .error error => .error (.ofMerge error), after) := by
  rw [creationRun, ← renderProject_eq] at isRun
  obtain ⟨documents, areDocuments, isRun⟩ := bind_eq_ok_iff.mp isRun
  obtain ⟨snapshot, asked, isRun⟩ := bind_eq_ok_iff.mp isRun
  have areKeys : Entries.keys (renderProject settings api table) ++ Entries.keys documents =
      outputPaths settings := by
    rw [keys_of_compileDocuments areDocuments apart, keys_renderProject, outputPaths]
  have isRendered : request.render around tree =
      .ok (renderProject settings api table, documents) :=
    GenerateRequest.render_eq_ok_iff.mpr ⟨settings, api, table, gathered, areDocuments, rfl⟩
  have captured := Sources.asked_eq_ok_iff.mp asked
  rw [← areKeys] at absent
  have isBlank := Snapshot.isBlank_of_capture absent captured
  have planned : plan (renderProject settings api table) snapshot documents =
      .ok (Plan.creations (renderProject settings api table) documents) :=
    Plan.plan_eq_creations isBlank (isWhole_renderProject whole api table)
  have isPlan : request.plan around tree =
      .ok (Plan.creations (renderProject settings api table) documents, snapshot) :=
    GenerateRequest.plan_eq_ok_iff.mpr ⟨_, documents, isRendered, captured, planned⟩
  refine ⟨documents, isRendered, areKeys, ?_⟩
  unfold generateProject
  simp only [isPlan, notDry, Bool.false_eq_true, if_false, Except.ok.inj isRun]
  cases outcome <;> rfl

end ApiWorkshop
