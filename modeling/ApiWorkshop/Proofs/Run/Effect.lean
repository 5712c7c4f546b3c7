import ApiWorkshop.Proofs.Merge.Effect
import ApiWorkshop.Proofs.Run.Outputs

/-!
# The effect of a regeneration

A regeneration reads and plans everything before it writes anything, so a run
that ends early or only looks leaves the tree as it is.  Any other run has the
effect of its plan, and its report tells which files could not be read or
written.  Only a text without bytes ends a run after it began to write; what was
planned before that text stays written.
-/

namespace ApiWorkshop

/-- How a regeneration can end: without a plan, dry, with its plan applied, or stopped while
its plan is applied. -/
inductive Regenerates (around : Surroundings) (request : GenerateRequest) (tree : FileTree) :
    Except RunError ProjectResult × FileTree → Prop
  | unplanned {error : RunError} (isPlan : request.plan around tree = .error error) :
      Regenerates around request tree (.error error, tree)
  | dry {operations : List FileOperation} {snapshot : Snapshot}
      (isPlan : request.plan around tree = .ok (operations, snapshot))
      (isDry : request.dryRun = true) :
      Regenerates around request tree
        (.ok { root := request.root
               report := { operations, failures := snapshot.unreadable }
               dryRun := true }, tree)
  | applied {operations : List FileOperation} {snapshot : Snapshot} {report : Report}
      {after : FileTree} (isPlan : request.plan around tree = .ok (operations, snapshot))
      (notDry : request.dryRun = false)
      (isApplied : applyOperations around.faults around.workingDirectory request.root operations
        snapshot tree = (.ok report, after)) :
      Regenerates around request tree (.ok { root := request.root, report }, after)
  | stopped {operations : List FileOperation} {snapshot : Snapshot} {error : MergeError}
      {after : FileTree} (isPlan : request.plan around tree = .ok (operations, snapshot))
      (notDry : request.dryRun = false)
      (isApplied : applyOperations around.faults around.workingDirectory request.root operations
        snapshot tree = (.error error, after)) :
      Regenerates around request tree (.error (.ofMerge error), after)

theorem regenerates (around : Surroundings) (request : GenerateRequest) (tree : FileTree) :
    Regenerates around request tree (generateProject around request tree) := by
  unfold generateProject
  split
  next error isPlan => exact .unplanned isPlan
  next operations snapshot isPlan =>
    split
    next isDry => exact .dry isPlan isDry
    next notDry =>
      split
      next report after isApplied => exact .applied isPlan (by simpa using notDry) isApplied
      next error after isApplied => exact .stopped isPlan (by simpa using notDry) isApplied

/-- A regeneration with a plan applies it, if it is not dry. -/
theorem generateProject_of_plan {around : Surroundings} {request : GenerateRequest}
    {tree : FileTree} {operations : List FileOperation} {snapshot : Snapshot}
    (isPlan : request.plan around tree = .ok (operations, snapshot))
    (notDry : request.dryRun = false) :
    let applied := applyOperations around.faults around.workingDirectory request.root operations
      snapshot tree
    (∃ report after, applied = (.ok report, after) ∧
      generateProject around request tree = (.ok { root := request.root, report }, after)) ∨
    ∃ error after, applied = (.error error, after) ∧
      generateProject around request tree = (.error (.ofMerge error), after) := by
  intro applied
  have regenerated := regenerates around request tree
  generalize generateProject around request tree = outcome at regenerated ⊢
  cases regenerated with
  | unplanned noPlan => simp [isPlan] at noPlan
  | dry _ isDry => simp [isDry] at notDry
  | @applied _ _ report after isOwnPlan _ isApplied =>
      obtain ⟨rfl, rfl⟩ := Prod.mk.inj (Except.ok.inj (isPlan.symm.trans isOwnPlan))
      exact .inl ⟨report, after, isApplied, rfl⟩
  | @stopped _ _ error after isOwnPlan _ isApplied =>
      obtain ⟨rfl, rfl⟩ := Prod.mk.inj (Except.ok.inj (isPlan.symm.trans isOwnPlan))
      exact .inr ⟨error, after, isApplied, rfl⟩

/-- A regeneration that ends with an error or is dry changes nothing, unless a
text that has no bytes ends it.  Any other one has the effect that its report
tells; the failures are the files that could not be read and those whose write
failed, and a write with a fault fails. -/
theorem generateProject_effect {around : Surroundings}
    (allOrNothing : ∀ path, (around.faults path).AllOrNothing) {request : GenerateRequest}
    {tree : FileTree} (wellFormed : tree.WellFormed)
    (isHere : tree.at? around.workingDirectory = some .directory)
    {place : LooseText → Location}
    (places : ∀ rendered documents, request.render around tree = .ok (rendered, documents) →
      Places tree around.workingDirectory request.root
        (Entries.keys rendered ++ Entries.keys documents) place) :
    let outcome := generateProject around request tree
    (request.dryRun = true → outcome.2 = tree) ∧
    (∀ error, outcome.1 = .error error → outcome.2 = tree ∨
      ∃ rendered documents, request.render around tree = .ok (rendered, documents) ∧
        ((∃ file ∈ rendered, file.2.isWhole = false) ∨
          ∃ document ∈ documents, document.2.whole = false)) ∧
    ∀ result, outcome.1 = .ok result → request.dryRun = false →
      ∃ rendered documents snapshot,
        let paths := Entries.keys rendered ++ Entries.keys documents
        let operations := result.report.operations
        let failed := Apply.failedPaths around.faults around.workingDirectory request.root
          snapshot (Apply.byPath operations) tree
        request.render around tree = .ok (rendered, documents) ∧
        Snapshot.capture tree around.workingDirectory request.root paths = .ok snapshot ∧
        plan rendered snapshot documents = .ok operations ∧
        Entries.keys result.report.failures = Entries.keys snapshot.unreadable ++ failed ∧
        (∀ path ∈ paths,
          (plannedDraft snapshot path (operations.filter (·.path = path))).isSome = true →
          (∃ call, (call ≠ .closeAgain ∧ call ≠ .removeTemporary) ∧
            around.faults path call ≠ none) → path ∈ failed) ∧
        Effect place paths snapshot result.report tree outcome.2 := by
  intro outcome
  have regenerated : Regenerates around request tree outcome := regenerates around request tree
  clear_value outcome
  cases regenerated with
  | unplanned _ => exact ⟨fun _ => rfl, fun _ _ => .inl rfl, fun _ isOk => by simp at isOk⟩
  | dry _ isDry =>
      exact ⟨fun _ => rfl, fun _ _ => .inl rfl, fun _ _ notDry => by simp [isDry] at notDry⟩
  | @applied operations snapshot report after isPlan notDry isApplied =>
      refine ⟨fun isDry => by simp [isDry] at notDry, fun _ isError => by simp at isError,
        fun result isOk _ => ?_⟩
      obtain rfl := Except.ok.inj isOk
      obtain ⟨rendered, documents, isRendered, captured, planned⟩ :=
        GenerateRequest.plan_eq_ok_iff.mp isPlan
      have isPlaces := places rendered documents isRendered
      have isSnapshot := Snapshot.eq_ofNodes_of_capture wellFormed isPlaces captured
      obtain ⟨rfl, keysFailures, history⟩ := Plan.history_of_applyOperations allOrNothing
        wellFormed isHere isPlaces planned isApplied
      refine ⟨rendered, documents, snapshot, isRendered, captured, planned, keysFailures,
        fun path member isSome => ?_,
        Plan.effect_of_history isPlaces isSnapshot planned history keysFailures⟩
      rintro ⟨call, noCleaning, isFault⟩
      obtain ⟨draft, isDraft⟩ := Option.isSome_iff_exists.mp isSome
      exact Plan.mem_failedPaths_of_fault isPlaces.nodup planned member isDraft noCleaning isFault
        tree
  | stopped isPlan notDry isApplied =>
      refine ⟨fun isDry => by simp [isDry] at notDry, fun _ _ => .inr ?_,
        fun _ isOk => by simp at isOk⟩
      obtain ⟨rendered, documents, isRendered, -, planned⟩ :=
        GenerateRequest.plan_eq_ok_iff.mp isPlan
      exact ⟨rendered, documents, isRendered, Plan.exists_loose_of_stopped <|
        Plan.stopped_of_applyOperations allOrNothing wellFormed isHere
          (places rendered documents isRendered) planned isApplied⟩

/-- A regeneration that ends with an error leaves the tree as it is, or a text without bytes
ended it: then what was planned before this text is written, but for what failed, and
nothing else changes. -/
theorem generateProject_stopped {around : Surroundings}
    (allOrNothing : ∀ path, (around.faults path).AllOrNothing) {request : GenerateRequest}
    {tree : FileTree} (wellFormed : tree.WellFormed)
    (isHere : tree.at? around.workingDirectory = some .directory)
    {place : LooseText → Location}
    (places : ∀ rendered documents, request.render around tree = .ok (rendered, documents) →
      Places tree around.workingDirectory request.root
        (Entries.keys rendered ++ Entries.keys documents) place)
    {error : RunError} (isError : (generateProject around request tree).1 = .error error) :
    (generateProject around request tree).2 = tree ∨
      ∃ rendered documents snapshot operations before path draft rest earlier later,
        request.render around tree = .ok (rendered, documents) ∧
        request.plan around tree = .ok (operations, snapshot) ∧
        Plan.writes rendered snapshot documents = before ++ (path, draft) :: rest ∧
        draft.whole = false ∧
        Apply.failedPaths around.faults around.workingDirectory request.root snapshot
          (Apply.byPath operations) tree = earlier ++ path :: later ∧
        Apply.Filled place before earlier tree (generateProject around request tree).2 := by
  have regenerated := regenerates around request tree
  generalize generateProject around request tree = outcome at isError regenerated ⊢
  cases regenerated with
  | unplanned _ => exact .inl rfl
  | dry _ _ => exact .inl rfl
  | applied _ _ _ => simp at isError
  | @stopped operations snapshot _ after isPlan _ isApplied =>
      obtain ⟨rendered, documents, isRendered, -, planned⟩ :=
        GenerateRequest.plan_eq_ok_iff.mp isPlan
      have isPlaces := places rendered documents isRendered
      have stopped := Plan.stopped_of_applyOperations allOrNothing wellFormed isHere isPlaces
        planned isApplied
      have sublist := Plan.keys_writes_sublist rendered snapshot documents
      obtain ⟨before, path, draft, rest, earlier, later, areWrites, notWhole, areFailed, filled⟩ :=
        stopped.exists_filled (sublist.nodup isPlaces.nodup)
          fun first inFirst second inSecond =>
            isPlaces.apart first (sublist.subset inFirst) second (sublist.subset inSecond)
      exact .inr ⟨rendered, documents, snapshot, operations, before, path, draft, rest, earlier,
        later, isRendered, isPlan, areWrites, notWhole, areFailed, filled⟩

namespace UnwritableVersion

/-- A project with a half of a surrogate pair as its version, and an empty definition. -/
def tree : FileTree :=
  [(["specforge.json"], .file (.text
      "\x7b\"name\":\"p\",\"package\":\"p\",\"version\":\"\\ud800\"\x7d".toList)),
    (["config"], .directory), (["config", "openapi"], .directory),
    (["config", "openapi", "a.toml"], .file (.text []))]

def around : Surroundings where
  now := ⟨⟨2000, 1, 1, .refl true⟩, .midnight, none⟩

def request : GenerateRequest := { root := ⟨.relative, []⟩ }

def settings : ProjectSettings :=
  { name := "p", package := some "p", version := [.half 0] }

def api : Api :=
  { title := settings.name, version := settings.version, description := ""
    tags := [], endpoints := [], schemas := [], translations := [] }

/-- The place of a rendered file of the project. -/
def place (file : ProjectFile) : Location :=
  outputPlace [] request.root (file.path settings.packageName)

/-- None of the outputs of the project is there, and creating them ends with an error after
the rendered files. -/
theorem evaluated :
    gathers around request tree settings api = true ∧
    (∀ file ∈ ProjectFile.all, (file.shownSettings settings).all LooseText.isWhole = true) ∧
    (∀ path ∈ outputPaths settings, tree.at? (outputPlace [] request.root path) = none) ∧
    (creationRun around request tree settings api []).toOption.any (fun run =>
      run.1.toOption.isNone &&
        ProjectFile.all.all fun file => (run.2.fileAt? (place file)).isSome) = true := by
  decide +kernel

end UnwritableVersion

/-- A version without bytes ends a regeneration with an error after all rendered files were
written, where none of them was before. -/
theorem written_before_unwritable_version : ∃ error after,
    generateProject UnwritableVersion.around UnwritableVersion.request UnwritableVersion.tree =
      (.error error, after) ∧
    ∀ file, UnwritableVersion.tree.fileAt? (UnwritableVersion.place file) = none ∧
      after.fileAt? (UnwritableVersion.place file) ≠ none := by
  obtain ⟨isGathered, whole, absent, isCreated⟩ := UnwritableVersion.evaluated
  obtain ⟨⟨outcome, after⟩, isRun, passes⟩ := exists_of_any_toOption isCreated
  obtain ⟨isError, areWritten⟩ := Bool.and_eq_true_iff.mp passes
  obtain ⟨documents, -, -, isOutcome⟩ := exists_of_creationRun (gather_of_gathers rfl isGathered)
    (fun file => whole file file.mem_all) (by decide) absent rfl isRun
  cases outcome with
  | ok report => exact absurd isError nofun
  | error error =>
      refine ⟨_, after, isOutcome, fun file => ⟨?_, ?_⟩⟩
      · have isOutput : file.path UnwritableVersion.settings.packageName ∈
            outputPaths UnwritableVersion.settings :=
          List.mem_append_left _ (List.mem_map_of_mem file.mem_all)
        rw [FileTree.fileAt?, UnwritableVersion.place, absent _ isOutput]
      · exact Option.isSome_iff_ne_none.mp (List.all_eq_true.mp areWritten file file.mem_all)

/-! ## A bare project -/

namespace BareProject

/-- A project with settings, an empty definition and a file that is rendered
without regions. -/
def tree : FileTree :=
  [(["specforge.json"], .file (.text "\x7b\"name\":\"p\",\"package\":\"p\"\x7d".toList)),
    (["config"], .directory), (["config", "openapi"], .directory),
    (["config", "openapi", "a.toml"], .file (.text [])), ([".gitignore"], .file (.text []))]

/-- Surroundings in which only one of the documents can be written. -/
def around : Surroundings where
  now := ⟨⟨2000, 1, 1, .refl true⟩, .midnight, none⟩
  faults path :=
    if path = LooseText.ofString "docs/translations.json" then .none else .atOnce .busy

def request : GenerateRequest := { root := ⟨.relative, []⟩ }

def place (path : LooseText) : Location :=
  (Path.ofText path).names.map LooseText.label

def paths : List LooseText :=
  ["README.md", ".gitignore", "pyproject.toml", "src/p/__init__.py", "src/p/routes.py",
    "src/p/schemas.py", "src/p/translations.py", "docs/openapi.json", "docs/translations.json"]

/-- Whether a regeneration of the project skips a file that it leaves as it is. -/
def skips (name : String) (outcome : Except RunError ProjectResult × FileTree) : Bool :=
  match outcome with
  | (.ok result, after) =>
      decide (FileOperation.skip name none .alreadyExists ∈ result.report.operations) &&
      decide (LooseText.ofString name ∉ Entries.keys result.report.failures) &&
      decide (after.fileAt? [name] = tree.fileAt? [name])
  | _ => false

theorem exists_of_skips {name : String} {outcome : Except RunError ProjectResult × FileTree}
    (passes : skips name outcome = true) : ∃ result after, outcome = (.ok result, after) ∧
      FileOperation.skip name none .alreadyExists ∈ result.report.operations ∧
      LooseText.ofString name ∉ Entries.keys result.report.failures ∧
      after.fileAt? [name] = tree.fileAt? [name] := by
  obtain ⟨answer, after⟩ := outcome
  cases answer with
  | error error => exact absurd passes Bool.false_ne_true
  | ok result =>
      simp only [skips, Bool.and_eq_true, decide_eq_true_eq] at passes
      exact ⟨result, after, rfl, passes.1.1, passes.1.2, passes.2⟩

/-- The project renders its paths, which lead to places of their own, and its file without
regions is skipped. -/
theorem evaluated :
    ((request.render around tree).toOption.map fun found =>
      Entries.keys found.1 ++ Entries.keys found.2) = some paths ∧
    (∀ entry ∈ tree, ∀ name ∈ entry.1.getLast?,
      tree.at? entry.1.dropLast = some .directory ∧ FileTree.IsName name) ∧
    paths.Nodup ∧
    (∀ path ∈ paths, (request.root.join (Path.ofText path)).IsClean ∧
      FileTree.place? tree (FileTree.start [] (request.root.join (Path.ofText path)))
        ((request.root.join (Path.ofText path)).names.map LooseText.label) = some (place path)) ∧
    (∀ path ∈ paths, ∀ other ∈ paths, place path = place other → path = other) ∧
    skips ".gitignore" (generateProject around request tree) = true := by
  decide +kernel

/-- The paths of the files that are rendered. -/
theorem keys_of_render {rendered : Entries LooseText LooseText}
    {documents : Entries LooseText Draft}
    (isRendered : request.render around tree = .ok (rendered, documents)) :
    Entries.keys rendered ++ Entries.keys documents = paths := by
  have areKeys := evaluated.1
  rw [isRendered] at areKeys
  exact Option.some.inj areKeys

theorem wellFormed : tree.WellFormed :=
  FileTree.wellFormed_of_entries evaluated.2.1

theorem places : Places tree [] ⟨.relative, []⟩ paths place := by
  obtain ⟨-, -, nodup, named, apart, -⟩ := evaluated
  exact ⟨nodup, named, apart⟩

/-- What a regeneration of the project comes to. -/
theorem exists_result : ∃ result after, generateProject around request tree = (.ok result, after) ∧
    FileOperation.skip ".gitignore" none .alreadyExists ∈ result.report.operations ∧
    LooseText.ofString ".gitignore" ∉ Entries.keys result.report.failures ∧
    after.fileAt? [".gitignore"] = tree.fileAt? [".gitignore"] := by
  obtain ⟨-, -, -, -, -, isSkipped⟩ := evaluated
  exact exists_of_skips isSkipped

theorem allOrNothing (path : LooseText) : (around.faults path).AllOrNothing := by
  by_cases isDocument : path = LooseText.ofString "docs/translations.json"
  · simpa [around, isDocument] using WriteFaults.allOrNothing_none
  · simpa [around, isDocument] using WriteFaults.allOrNothing_atOnce (by decide)

end BareProject

/-- A regeneration of the bare project has the effect that its report tells. -/
theorem generateProject_effect_of_bareProject :
    ∃ result after snapshot,
      generateProject BareProject.around BareProject.request BareProject.tree =
        (.ok result, after) ∧
      Effect BareProject.place BareProject.paths snapshot result.report BareProject.tree after := by
  obtain ⟨result, after, isResult, -⟩ := BareProject.exists_result
  have places : ∀ rendered documents,
      BareProject.request.render BareProject.around BareProject.tree = .ok (rendered, documents) →
        Places BareProject.tree [] ⟨.relative, []⟩
          (Entries.keys rendered ++ Entries.keys documents) BareProject.place := by
    intro rendered documents isRendered
    rw [BareProject.keys_of_render isRendered]
    exact BareProject.places
  obtain ⟨-, -, effect⟩ := generateProject_effect BareProject.allOrNothing
    BareProject.wellFormed rfl places
  rw [isResult] at effect
  obtain ⟨rendered, documents, snapshot, isRendered, -, -, -, -, changes⟩ := effect result rfl rfl
  rw [BareProject.keys_of_render isRendered] at changes
  exact ⟨result, after, snapshot, isResult, changes⟩

/-- The file without regions has an operation that says that it changes and does
not fail, and still does not differ. -/
theorem generateProject_keeps_file_without_regions :
    ∃ result after, generateProject BareProject.around BareProject.request BareProject.tree =
        (.ok result, after) ∧
      ∃ operation ∈ result.report.operations, operation.changed = true ∧
        operation.path ∉ Entries.keys result.report.failures ∧
        after.fileAt? (BareProject.place operation.path) =
          BareProject.tree.fileAt? (BareProject.place operation.path) := by
  obtain ⟨result, after, isResult, member, notFailed, same⟩ := BareProject.exists_result
  exact ⟨result, after, isResult, _, member, rfl, notFailed, same⟩

end ApiWorkshop
