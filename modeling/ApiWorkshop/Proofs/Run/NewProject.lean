import ApiWorkshop.Proofs.OpenApi.Written
import ApiWorkshop.Proofs.Project.Paths
import ApiWorkshop.Proofs.Project.Rendered
import ApiWorkshop.Proofs.Run.Creations

/-!
# New projects that cannot be written

A new project is a run of creations below a directory that is missing or empty.
When one of its files cannot be written, everything below the directory goes
again, and the directory itself if it was made.  What stays are the directories
above it that had to be made first.
-/

namespace ApiWorkshop

open FileTree Discard

namespace NewRequest

/-! ## The plan of a new project -/

theorem packageName_settings (request : NewRequest) :
    request.settings.packageName = LooseText.ofText (Text.packageName request.name.toList) := by
  have isPackage := isPackage_packageName request.name.toList
  simp [settings, ProjectSettings.packageName, isPackage.1]

theorem isWhole_settings (request : NewRequest) : request.settings.IsWhole where
  name := LooseText.isWhole_ofText _
  version := rfl
  packageName := packageName_settings request ▸ LooseText.isWhole_ofText _
  apiDirectory := rfl
  openapiOutput := rfl
  translationsOutput := rfl

/-- A file of a new project has bytes and an inner path. -/
theorem inner_of_mem_files {request : NewRequest} {api : Api} {table : TranslationTable}
    {file : LooseText × LooseText} (member : file ∈ request.files api table) :
    (Path.ofText file.1).IsInner ∧ file.2.isWhole = true := by
  have settingsPath : (Path.ofText (LooseText.ofString projectFileName)).IsInner := by decide
  have starterPath : (Path.ofText (LooseText.ofString "config/openapi/user.toml")).IsInner := by
    decide
  rcases Entries.mem_put member with rfl | member
  · exact ⟨settingsPath, LooseText.isWhole_ofText _⟩
  rcases Entries.mem_put member with rfl | member
  · exact ⟨starterPath, LooseText.isWhole_ofText _⟩
  · have shown := ProjectFile.whole_shownSettings request.isWhole_settings
    refine ⟨?_, isWhole_renderProject shown api table file member⟩
    obtain ⟨kind, -, rfl⟩ := List.mem_map.mp (Entries.mem_of_mem_ofPairs member)
    have isPackage : IsPackage request.settings.packageName := by
      rw [packageName_settings]
      exact isPackage_packageName _
    dsimp only
    exact ProjectFile.isInner_path isPackage kind

theorem inner_of_compileDocuments {request : NewRequest} {api : Api} {table : TranslationTable}
    {documents : Entries LooseText Draft}
    (areDocuments : compileDocuments request.settings api table = .ok documents) :
    ∀ document ∈ documents, (Path.ofText document.1).IsInner := by
  have fixedPaths : (Path.ofText (LooseText.ofString "docs/openapi.json")).IsInner ∧
      (Path.ofText (LooseText.ofString "docs/translations.json")).IsInner := by decide
  obtain ⟨openapi, translations, -, rfl⟩ := exists_of_compileDocuments areDocuments
  intro document member
  have isDocument := Entries.mem_of_mem_ofPairs member
  simp only [List.mem_cons, List.not_mem_nil, or_false] at isDocument
  rcases isDocument with rfl | rfl
  · exact fixedPaths.1
  · exact fixedPaths.2

/-- The plan of a new project creates files that are rendered, one for each path. -/
theorem exists_of_plan {request : NewRequest} {operations : List FileOperation}
    (isPlan : request.plan = .ok operations) :
    ∃ api table documents,
      compileApi request.settings.heading
        [⟨request.starterPath.label, Starter.text request.name⟩] = .ok api ∧
      compileDocuments request.settings api table = .ok documents ∧
      ApiWorkshop.plan (request.files api table) {} documents = .ok operations := by
  rw [plan] at isPlan
  obtain ⟨api, isApi, isPlan⟩ := bind_eq_ok_iff.mp isPlan
  obtain ⟨table, -, isPlan⟩ := bind_eq_ok_iff.mp isPlan
  obtain ⟨documents, areDocuments, isPlan⟩ := bind_eq_ok_iff.mp isPlan
  refine ⟨api, table, documents, isApi, areDocuments, ?_⟩
  cases planned : ApiWorkshop.plan (request.files api table) {} documents with
  | error conflict => simp [planned] at isPlan
  | ok made =>
      simp only [planned, Except.ok.injEq] at isPlan
      rw [isPlan]

/-- Every rendered file and every document of a new project is created. -/
theorem mem_plan_iff {rendered : Entries LooseText LooseText}
    {documents : Entries LooseText Draft} {operations : List FileOperation}
    (isPlan : ApiWorkshop.plan rendered {} documents = .ok operations)
    {operation : FileOperation} :
    operation ∈ operations ↔
      (∃ file ∈ rendered, operation = .create file.1 file.2.draft) ∨
        ∃ document ∈ documents, operation = .create document.1 document.2 := by
  have isNew (path : LooseText) := Plan.operationsOn_new
    (rfl : Snapshot.isUnreadable {} path = false) (rfl : Snapshot.text? {} path = none)
  obtain ⟨-, rfl⟩ := Plan.plan_eq_ok_iff.mp isPlan
  simp only [Plan.files, Plan.candidates, List.flatMap_map, List.map_append, List.map_map,
    List.flatMap_append, List.mem_append, List.mem_flatMap, Function.comp_apply, isNew,
    List.mem_singleton]

theorem creations_of_plan {request : NewRequest} {operations : List FileOperation}
    (isPlan : request.plan = .ok operations) : Creations operations := by
  obtain ⟨api, table, documents, isApi, areDocuments, planned⟩ := exists_of_plan isPlan
  intro operation member
  rcases (mem_plan_iff planned).mp member with ⟨file, isFile, rfl⟩ | ⟨document, isDocument, rfl⟩
  · obtain ⟨isInner, isWhole⟩ := inner_of_mem_files isFile
    exact ⟨rfl, isWhole, isInner.staysBelow⟩
  · exact ⟨rfl, whole_of_compileDocuments request.isWhole_settings isApi areDocuments document
      isDocument, (inner_of_compileDocuments areDocuments document isDocument).staysBelow⟩

/-- A plan is made if the starter definition is accepted and its document can be
written.  It creates the settings file. -/
theorem exists_plan {request : NewRequest} {api : Api}
    (isApi : compileApi request.settings.heading
      [⟨request.starterPath.label, Starter.text request.name⟩] = .ok api)
    (hasText : ∃ content, JsonValue.ofValue (OpenApi.document api) = .ok content) :
    ∃ operations, request.plan = .ok operations ∧
      ∃ operation ∈ operations, operation.path = LooseText.ofString projectFileName := by
  obtain ⟨definitions, -, isMerged⟩ := exists_of_compileApi isApi
  obtain ⟨table, isTable⟩ := TranslationTable.exists_ofTranslations isMerged
  have isCompiled : compileTable api = .ok table := by rw [compileTable, isTable]
  obtain ⟨documents, areMade⟩ :
      ∃ documents, renderDocuments request.settings api table = .ok documents :=
    OpenApi.exists_renderDocuments_iff.mpr
      (OpenApi.exists_draft_iff.mpr (JsonValue.exists_ofValue_iff.mp hasText))
  have areDocuments : compileDocuments request.settings api table = .ok documents := by
    unfold compileDocuments
    rw [areMade]
  obtain ⟨operations, planned⟩ : ∃ operations,
      ApiWorkshop.plan (request.files api table) {} documents = .ok operations :=
    ⟨_, Plan.plan_eq_ok_iff.mpr ⟨fun file _ => ⟨_, rfl⟩, rfl⟩⟩
  refine ⟨operations, ?_, ?_⟩
  · refine bind_eq_ok_iff.mpr ⟨api, isApi, bind_eq_ok_iff.mpr ⟨table, isCompiled,
      bind_eq_ok_iff.mpr ⟨documents, areDocuments, ?_⟩⟩⟩
    rw [planned]
  · exact ⟨_, (mem_plan_iff planned).mpr (.inl ⟨_, Entries.mem_of_get?
      (Entries.get?_put_self _ _ _), rfl⟩), rfl⟩

/-! ## Where a new project can be -/

/-- A place is free for a new project if nothing stands there or an empty
directory. -/
theorem isFree_of_isOccupied {tree : FileTree} (wellFormed : tree.WellFormed)
    {here place : Location} {root : Path} (names : Names tree here root place)
    (short : IsShort root) (isFree : isOccupied tree here root = .ok false) :
    tree.at? place = none ∨ tree.at? place = some .directory ∧
      ∀ location, place <+: location → location ≠ place → tree.at? location = none := by
  rw [isOccupied, FileTree.pathExists, wellFormed.holds_eq names short,
    wellFormed.isDirectory_eq names short] at isFree
  rcases found : tree.at? place with _ | (content | _)
  · exact .inl rfl
  · simp [found, Bind.bind, Except.bind] at isFree
  · refine .inr ⟨rfl, fun location below apart => ?_⟩
    have located := wellFormed.locate_eq_ok names short (by simp [found])
    have noChildren : FileTree.children tree place = [] := by
      simpa [found, namesIn, located, Bind.bind, Except.bind] using isFree
    obtain ⟨more, rfl⟩ := below
    cases more with
    | nil => simp at apart
    | cons name more =>
        have absent : tree.at? (place ++ [name]) = none := by
          by_contra isThere
          simpa [noChildren] using mem_children_iff.mpr isThere
        cases more with
        | nil => exact absent
        | cons next more =>
            have noDirectory : tree.at? (place ++ [name]) ≠ some .directory := by simp [absent]
            simpa using wellFormed.at?_below noDirectory (next :: more) (by simp)

/-- A plan is made for a name that can be one and a place that is free. -/
theorem checkedPlan_eq_ok_iff {around : Surroundings} {request : NewRequest} {tree : FileTree}
    {operations : List FileOperation} :
    request.checkedPlan around tree = .ok operations ↔
      isValidName request.name = true ∧
        isOccupied tree around.workingDirectory request.root = .ok false ∧
        request.plan = .ok operations := by
  rw [checkedPlan]
  cases isValid : isValidName request.name with
  | false => simp
  | true =>
      rcases isOccupied tree around.workingDirectory request.root with error | (_ | _) <;>
        simp [Sources.asked, Bind.bind, Except.bind]

end NewRequest

/-! ## Cleaning up -/

/-- Cleaning up leaves the directories above that of the project, and nothing else
that was not there before. -/
theorem discard_cases {here place : Location} {root : Path} {tree made written : FileTree}
    (wellFormed : tree.WellFormed) (isHere : tree.at? here = some .directory)
    (names : Names tree here root place)
    (isMade : makeDirectories here root tree = (.ok (), made))
    (isFree : tree.at? place = none ∨ tree.at? place = some .directory ∧
      ∀ location, place <+: location → location ≠ place → tree.at? location = none)
    {operations : List FileOperation} (creations : Creations operations)
    (areShort : tree.at? place ≠ none →
      ∀ directory ∈ Discard.directories root (operations.map FileOperation.path),
        IsShort directory)
    (isWritten : WrittenTo ((operations.map FileOperation.path).map (target root place))
      made written) :
    ∃ left, discard here root operations (tree.at? place).isNone written = (.ok (), left) ∧
      left.at? place.dropLast = some .directory ∧ WayMade place.dropLast tree left := by
  rcases isFree with absent | ⟨isDirectory, isEmpty⟩
  · obtain ⟨left, isDiscarded, isLeft⟩ :=
      discard_of_missing wellFormed isHere names isMade absent isWritten
    exact ⟨left, by rw [absent]; exact isDiscarded, isLeft⟩
  · obtain ⟨-, wayMade, -⟩ := wellFormed.makeDirectories_cases isHere names isMade
    have areUnder : ∀ directory ∈ Discard.directories root (operations.map FileOperation.path),
        root.IsUnder directory := fun _ => isUnder_of_mem_directories
      (List.forall_mem_map.mpr fun operation member => (creations operation member).2.2)
    have notRefused := not_refuses_of_short isWritten.wellFormed (names.of_directories
      fun location isThere => isWritten.keeps location (wayMade.grown.keeps isThere))
      areUnder (areShort (by simp [isDirectory]))
    obtain ⟨isOk, sameLeft⟩ := (discard_of_present wellFormed isHere names isMade isDirectory
      isEmpty creations isWritten).1 notRefused
    refine ⟨(discard here root operations false written).2, ?_, ?_, fun location => .inl
      (sameLeft location)⟩
    · rw [isDirectory, ← isOk]
      rfl
    · rw [sameLeft]
      exact wellFormed.at?_dropLast isDirectory

/-- Writing a new project whose directory can be made fails if one of its files has a
fault.  When it fails, it names a file that was not written, and cleans up. -/
theorem writeNew_cases {around : Surroundings}
    (allOrNothing : ∀ path, (around.faults path).AllOrNothing) {request : NewRequest}
    {tree made : FileTree} (wellFormed : tree.WellFormed)
    (isHere : tree.at? around.workingDirectory = some .directory) {place : Location}
    (names : Names tree around.workingDirectory request.root place)
    (isMade : makeDirectories around.workingDirectory request.root tree = (.ok (), made))
    (isFree : tree.at? place = none ∨ tree.at? place = some .directory ∧
      ∀ location, place <+: location → location ≠ place → tree.at? location = none)
    {operations : List FileOperation} (creations : Creations operations)
    (areShort : tree.at? place ≠ none →
      ∀ directory ∈ Discard.directories request.root (operations.map FileOperation.path),
        IsShort directory) :
    let outcome := writeNew around request operations (tree.at? place).isNone tree
    ((∃ operation ∈ operations, ∃ call, (call ≠ .closeAgain ∧ call ≠ .removeTemporary) ∧
        around.faults operation.path call ≠ none) → ∃ error, outcome.1 = .error error) ∧
      ∀ error, outcome.1 = .error error →
        (∃ path ∈ operations.map FileOperation.path, ∃ failure,
          error = .unwritten path failure) ∧
        outcome.2.at? place.dropLast = some .directory ∧
        WayMade place.dropLast tree outcome.2 := by
  intro outcome
  obtain ⟨madeFormed, wayMade, isReached⟩ := wellFormed.makeDirectories_cases isHere names isMade
  obtain ⟨report, written, isApplied, isWritten, areFailures, faulty⟩ :=
    Apply.applyOperations_of_creations allOrNothing madeFormed (wayMade.grown.keeps isHere)
      (names.of_directories fun _ => wayMade.grown.keeps) (isReached _ rfl) creations
  cases isFailures : report.failures with
  | nil =>
      have isOutcome : ∃ result, outcome.1 = .ok result := by
        unfold outcome writeNew
        simp only [isMade, isApplied, isFailures]
        exact ⟨_, rfl⟩
      obtain ⟨result, isOk⟩ := isOutcome
      rw [isOk]
      refine ⟨fun ⟨operation, member, call, noCleaning, isFault⟩ => ?_, nofun⟩
      have isFailure := faulty operation member call noCleaning isFault
      simp [isFailures, Entries.keys] at isFailure
  | cons failure failures =>
      obtain ⟨path, failure⟩ := failure
      obtain ⟨left, isDiscarded, isLeft⟩ :=
        discard_cases wellFormed isHere names isMade isFree creations areShort isWritten
      have isOutcome : outcome = (.error (.unwritten path failure), left) := by
        unfold outcome writeNew
        simp only [isMade, isApplied, isFailures, isDiscarded]
      rw [isOutcome]
      refine ⟨fun _ => ⟨_, rfl⟩, fun error isError => ⟨⟨path, ?_, failure, ?_⟩, isLeft⟩⟩
      · exact areFailures path (by simp [isFailures, Entries.keys])
      · exact (Except.error.inj isError).symm

/-- A run that is planned and not dry goes on to write. -/
theorem newProject_eq_writeNew {around : Surroundings} {request : NewRequest}
    (notDry : request.dryRun = false) {tree : FileTree} (wellFormed : tree.WellFormed)
    {place : Location} (names : Names tree around.workingDirectory request.root place)
    (short : IsShort request.root) {operations : List FileOperation}
    (isPlan : request.checkedPlan around tree = .ok operations) :
    newProject around request tree =
      writeNew around request operations (tree.at? place).isNone tree := by
  have isPresent := wellFormed.holds_eq names short fun _ => true
  unfold newProject
  simp only [isPlan, notDry, FileTree.pathExists, isPresent]
  cases tree.at? place <;> rfl

/-- A new project with an accepted name and target, whose plan succeeds and whose
directory can be made, fails if one of its files has a fault.  When it fails, it names a
file that was not written, and the tree has gained at most directories above that of the
project.  So it is as before exactly if the parent of the project was there. -/
theorem failed_newProject_leaves_parents {around : Surroundings}
    (allOrNothing : ∀ path, (around.faults path).AllOrNothing) {request : NewRequest}
    (notDry : request.dryRun = false) {tree : FileTree} (wellFormed : tree.WellFormed)
    (isHere : tree.at? around.workingDirectory = some .directory) {place : Location}
    (names : Names tree around.workingDirectory request.root place)
    (isMade : ∃ made, makeDirectories around.workingDirectory request.root tree = (.ok (), made))
    {operations : List FileOperation} (isPlan : request.checkedPlan around tree = .ok operations)
    (areShort : tree.at? place ≠ none →
      ∀ directory ∈ Discard.directories request.root (operations.map FileOperation.path),
        IsShort directory) :
    let outcome := newProject around request tree
    ((∃ operation ∈ operations, ∃ call, (call ≠ .closeAgain ∧ call ≠ .removeTemporary) ∧
        around.faults operation.path call ≠ none) → ∃ error, outcome.1 = .error error) ∧
      ∀ error, outcome.1 = .error error →
        (∃ path ∈ operations.map FileOperation.path, ∃ failure,
          error = .unwritten path failure) ∧
        WayMade place.dropLast tree outcome.2 ∧
        ((∀ location, outcome.2.at? location = tree.at? location) ↔
          tree.at? place.dropLast = some .directory) := by
  intro outcome
  obtain ⟨made, isMade⟩ := isMade
  have short := isShort_of_makeDirectories names.1 isMade
  obtain ⟨-, notOccupied, planned⟩ := NewRequest.checkedPlan_eq_ok_iff.mp isPlan
  have isFree := NewRequest.isFree_of_isOccupied wellFormed names short notOccupied
  obtain ⟨fails, cleanedUp⟩ := writeNew_cases allOrNothing wellFormed isHere names isMade isFree
    (NewRequest.creations_of_plan planned) areShort
  rw [← newProject_eq_writeNew notDry wellFormed names short isPlan] at fails cleanedUp
  refine ⟨fails, fun error isError => ?_⟩
  obtain ⟨isUnwritten, isParent, wayMade⟩ := cleanedUp error isError
  refine ⟨isUnwritten, wayMade, fun same => ?_, fun isThere location => ?_⟩
  · rw [← same, isParent]
  · rcases wayMade location with same | ⟨isNew, -, onWay⟩
    · exact same
    · have notParent : location ≠ place.dropLast := by
        rintro rfl
        simp [isThere] at isNew
      have isAbove := wellFormed.isDirectory_of_prefix (by simp [isThere]) onWay notParent
      simp [isNew] at isAbove

/-! ## A project whose parent is missing -/

namespace MissingParent

/-- A project in a directory that is not there. -/
def request : NewRequest := { name := "p", parent := ⟨.relative, [("x" : LooseText)]⟩ }

/-- Surroundings in which no file can be written. -/
def around : Surroundings where
  now := ⟨⟨2000, 1, 1, .refl true⟩, .midnight, none⟩
  faults _ := .atOnce .busy

def place : Location := ["x", "p"]

theorem allOrNothing (path : LooseText) : (around.faults path).AllOrNothing :=
  WriteFaults.allOrNothing_atOnce (by decide)

theorem wellFormed : FileTree.WellFormed [] :=
  wellFormed_of_entries (by simp)

theorem names : Names [] [] request.root place := by
  unfold Names
  decide

theorem isMade : ∃ made, makeDirectories [] request.root [] = (.ok (), made) :=
  ⟨_, rfl⟩

/-- Whether the API that was compiled can be written as a document. -/
def isWritable (compiled : Except RunError Api) : Bool :=
  match compiled with
  | .ok api => (JsonValue.ofValue (OpenApi.document api)).toOption.isSome
  | .error _ => false

theorem exists_of_isWritable {compiled : Except RunError Api}
    (written : isWritable compiled = true) :
    ∃ api, compiled = .ok api ∧
      ∃ content, JsonValue.ofValue (OpenApi.document api) = .ok content := by
  cases compiled with
  | error error => contradiction
  | ok api =>
      cases isContent : JsonValue.ofValue (OpenApi.document api) with
      | error fault => simp [isWritable, isContent, Except.toOption] at written
      | ok content => exact ⟨api, rfl, content, isContent⟩

theorem isWritable_starter : isWritable (compileApi request.settings.heading
    [⟨request.starterPath.label, Starter.text request.name⟩]) = true := by
  -- The content is found line by line, so that the kernel need not decode the literals.
  obtain ⟨content, areLines, written⟩ : ∃ content,
      Text.ofLines Starter.remainingLines = content ∧
        isWritable (compileApi request.settings.heading [⟨request.starterPath.label,
          "# API definition for " ++ request.name.toList ++ ".\n" ++ content⟩]) = true := by
    apply Exists.intro
    apply And.intro
    · unfold Starter.remainingLines
      repeat apply Text.ofLines_cons_of_eq rfl
      exact rfl
    · decide +kernel
  subst areLines
  exact written

theorem exists_checkedPlan : ∃ operations, request.checkedPlan around [] = .ok operations ∧
    ∃ operation ∈ operations, ∃ call, (call ≠ .closeAgain ∧ call ≠ .removeTemporary) ∧
      around.faults operation.path call ≠ none := by
  obtain ⟨api, isApi, hasText⟩ := exists_of_isWritable isWritable_starter
  obtain ⟨operations, planned, operation, member, -⟩ := NewRequest.exists_plan isApi hasText
  refine ⟨operations, NewRequest.checkedPlan_eq_ok_iff.mpr ⟨by decide, ?_, planned⟩, operation,
    member, .makeParent, by decide, Option.some_ne_none _⟩
  exact (by decide : NewRequest.isOccupied [] [] request.root = .ok false)

end MissingParent

/-- A project whose parent is missing and whose files cannot be written ends with an
error and leaves nothing but the parent. -/
theorem failed_newProject_leaves_parents_of_missingParent :
    ∃ error, (newProject MissingParent.around MissingParent.request []).1 = .error error ∧
      WayMade ["x"] [] (newProject MissingParent.around MissingParent.request []).2 := by
  obtain ⟨operations, isPlan, fault⟩ := MissingParent.exists_checkedPlan
  obtain ⟨fails, leavesParents⟩ := failed_newProject_leaves_parents MissingParent.allOrNothing rfl
    MissingParent.wellFormed rfl MissingParent.names MissingParent.isMade isPlan
    fun isThere => absurd rfl isThere
  obtain ⟨error, isError⟩ := fails fault
  exact ⟨error, isError, (leavesParents error isError).2.1⟩

/-- A new project that fails can leave a directory that was not there before. -/
theorem failed_newProject_leaves_parent :
    (∃ operations, MissingParent.request.checkedPlan MissingParent.around [] = .ok operations ∧
      ∃ operation ∈ operations, ∃ call, (call ≠ .closeAgain ∧ call ≠ .removeTemporary) ∧
        MissingParent.around.faults operation.path call ≠ none) ∧
      FileTree.at? [] ["x"] = none ∧
      (newProject MissingParent.around MissingParent.request []).2.at? ["x"] =
        some .directory := by
  obtain ⟨operations, isPlan, fault⟩ := MissingParent.exists_checkedPlan
  refine ⟨⟨operations, isPlan, fault⟩, rfl, ?_⟩
  obtain ⟨made, isMade⟩ := MissingParent.isMade
  obtain ⟨-, -, planned⟩ := NewRequest.checkedPlan_eq_ok_iff.mp isPlan
  obtain ⟨fails, cleanedUp⟩ := writeNew_cases MissingParent.allOrNothing MissingParent.wellFormed
    rfl MissingParent.names isMade (.inl rfl) (NewRequest.creations_of_plan planned)
    fun isThere => absurd rfl isThere
  rw [← newProject_eq_writeNew rfl MissingParent.wellFormed MissingParent.names
    (isShort_of_makeDirectories MissingParent.names.1 isMade) isPlan] at fails cleanedUp
  obtain ⟨error, isError⟩ := fails fault
  exact (cleanedUp error isError).2.1

end ApiWorkshop
