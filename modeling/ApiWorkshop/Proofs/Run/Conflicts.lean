import Mathlib.Data.List.Induction
import ApiWorkshop.Proofs.Api.Reading
import ApiWorkshop.Proofs.Run.Effect

/-!
# Conflicts of a regeneration

Two texts of a file have markers: the one that is there and the rendered one.
Disorder in the first one makes the file a skipped one.  Disorder in the rendered
text of a file that is there ends the regeneration, and nothing else ends it with
a conflict.
-/

namespace ApiWorkshop

/-! ## Groups of any operations -/

namespace Apply

/-- Grouping one more operation puts it behind those on its path. -/
theorem byPath_concat (operations : List FileOperation) (operation : FileOperation) :
    byPath (operations ++ [operation]) =
      Entries.put operation.path
        ((Entries.get? operation.path (byPath operations)).getD [] ++ [operation])
        (byPath operations) := by
  rw [byPath, List.foldl_append]
  rfl

theorem nodup_keys_byPath (operations : List FileOperation) :
    (Entries.keys (byPath operations)).Nodup := by
  induction operations using List.reverseRecOn with
  | nil => exact List.nodup_nil
  | append_singleton operations operation ih =>
      rw [byPath_concat]
      exact Entries.nodup_keys_put ih

theorem getD_get?_byPath (operations : List FileOperation) (path : LooseText) :
    (Entries.get? path (byPath operations)).getD [] = operations.filter (·.path = path) := by
  induction operations using List.reverseRecOn with
  | nil => rfl
  | append_singleton operations operation ih =>
      rw [byPath_concat, List.filter_append]
      by_cases samePath : operation.path = path
      · subst samePath
        rw [Entries.get?_put_self, ih]
        simp
      · rw [Entries.get?_put_of_ne (Ne.symm samePath), ih]
        simp [samePath]

/-- A group has all operations on its path, in order. -/
theorem eq_filter_of_mem_byPath {operations : List FileOperation}
    {group : LooseText × List FileOperation} (member : group ∈ byPath operations) :
    group.2 = operations.filter (·.path = group.1) := by
  rw [← getD_get?_byPath, Entries.get?_of_mem (nodup_keys_byPath operations) member]
  rfl

theorem isSome_wholeDraft? {operations : List FileOperation} {operation : FileOperation}
    (member : operation ∈ operations)
    (isWhole : operation.change = .create ∨ operation.change = .regenerate) :
    (wholeDraft? operations).isSome = true := by
  rw [wholeDraft?, List.findSome?_isSome_iff]
  refine ⟨operation, member, ?_⟩
  rcases isWhole with isCreate | isRegenerate
  · simp [isCreate]
  · simp [isRegenerate]

end Apply

namespace Plan

variable {rendered : Entries LooseText LooseText} {documents : Entries LooseText Draft}
  {snapshot : Snapshot} {operations : List FileOperation}

/-! ## Disorder in rendered texts -/

/-- A rendered text whose markers are in disorder, of a file that is there and can be
read. -/
structure IsDisordered (snapshot : Snapshot) (file : LooseText × LooseText)
    (conflict : Conflict) : Prop where
  readable : snapshot.isUnreadable file.1 = false
  isThere : snapshot.hasFile file.1 = true
  disorder : findRegions file.1.label file.2.shown = .error conflict

theorem fileOperations_eq_error_iff {file : LooseText × LooseText} {conflict : Conflict} :
    fileOperations snapshot file = .error conflict ↔ IsDisordered snapshot file conflict := by
  obtain ⟨path, text⟩ := file
  constructor
  · intro isError
    rw [fileOperations] at isError
    split at isError
    · contradiction
    next readable =>
      split at isError
      · contradiction
      next existing isThere =>
        refine ⟨by simpa using readable, by simp [Snapshot.hasFile, isThere], ?_⟩
        cases found : findRegions path.label text.shown with
        | error other => simpa [found, Bind.bind, Except.bind] using isError
        | ok wanted => simp [found, Bind.bind, Except.bind] at isError
  · intro disordered
    have readable : ¬ snapshot.isUnreadable path = true := by simp [disordered.readable]
    obtain ⟨existing, isThere⟩ := Option.isSome_iff_exists.mp disordered.isThere
    have found : findRegions path.label text.shown = .error conflict := disordered.disorder
    simp only [fileOperations, if_neg readable, isThere, found]
    rfl

/-- A plan fails exactly if a rendered text is in disorder. -/
theorem exists_plan_eq_error_iff :
    (∃ conflict, plan rendered snapshot documents = .error conflict) ↔
      ∃ file ∈ rendered, ∃ conflict, IsDisordered snapshot file conflict := by
  simp only [← fileOperations_eq_error_iff]
  cases isPlan : plan rendered snapshot documents with
  | ok operations =>
      have allFound := (plan_eq_ok_iff.mp isPlan).1
      refine iff_of_false (by simp) ?_
      rintro ⟨file, isFile, conflict, isError⟩
      obtain ⟨found, isOk⟩ := allFound file isFile
      exact nomatch isError.symm.trans isOk
  | error conflict =>
      refine iff_of_true ⟨conflict, rfl⟩ ?_
      by_contra noError
      push Not at noError
      have allFound : ∀ file ∈ rendered, ∃ found, fileOperations snapshot file = .ok found := by
        intro file isFile
        cases isFound : fileOperations snapshot file with
        | ok found => exact ⟨found, rfl⟩
        | error other => exact absurd isFound (noError file isFile other)
      have isOk : plan rendered snapshot documents = .ok _ := plan_eq_ok_iff.mpr ⟨allFound, rfl⟩
      exact nomatch isPlan.symm.trans isOk

/-! ## Merging what was planned -/

/-- The operations on a path that no document has are those for its rendered
text. -/
theorem filter_path_of_not_document (distinct : (Entries.keys rendered).Nodup)
    {path : LooseText} (notDocument : path ∉ Entries.keys documents) :
    ((files rendered snapshot documents).flatMap Prod.snd).filter (·.path = path) = [] ∨
      ∃ text, (path, text) ∈ rendered ∧
        ((files rendered snapshot documents).flatMap Prod.snd).filter (·.path = path) =
          operationsOn snapshot path (.rendered text) := by
  have split : files rendered snapshot documents =
      files rendered snapshot [] ++ files [] snapshot documents := by
    simp [files, candidates]
  have noDocument : ((files [] snapshot documents).flatMap Prod.snd).filter
      (·.path = path) = [] := by
    rw [List.filter_eq_nil_iff]
    intro operation member samePath
    obtain ⟨file, isFile, inFile⟩ := List.mem_flatMap.mp member
    have isKey : file.1 ∈ Entries.keys (files [] snapshot documents) :=
      List.mem_map_of_mem isFile
    rw [keys_files, ← path_of_mem_files file isFile operation inFile] at isKey
    exact notDocument (of_decide_eq_true samePath ▸ isKey)
  rw [split, List.flatMap_append, List.filter_append, noDocument, List.append_nil]
  by_cases isRendered : path ∈ Entries.keys rendered
  · obtain ⟨⟨other, text⟩, member, samePath⟩ := List.mem_map.mp isRendered
    obtain rfl : other = path := samePath
    have inFiles : (other, operationsOn snapshot other (.rendered text)) ∈
        files rendered snapshot [] :=
      List.mem_map.mpr ⟨(other, .rendered text),
        List.mem_append_left _ (List.mem_map.mpr ⟨(other, text), member, rfl⟩), rfl⟩
    refine .inr ⟨text, member, Apply.filter_flatMap_path ?_ path_of_mem_files inFiles⟩
    rwa [keys_files, Entries.keys, Entries.keys, List.map_nil, List.append_nil]
  · refine .inl (List.filter_eq_nil_iff.mpr fun operation member samePath => ?_)
    obtain ⟨file, isFile, inFile⟩ := List.mem_flatMap.mp member
    have isKey : file.1 ∈ Entries.keys (files rendered snapshot []) :=
      List.mem_map_of_mem isFile
    rw [keys_files, ← path_of_mem_files file isFile operation inFile] at isKey
    exact isRendered (of_decide_eq_true samePath ▸ by simpa [Entries.keys] using isKey)

/-- The operation of a document on a file that can be read is on the whole file. -/
theorem exists_whole_of_document {path : LooseText} (readable : snapshot.isUnreadable path = false)
    (isDocument : path ∈ Entries.keys documents) :
    ∃ operation ∈ (files rendered snapshot documents).flatMap Prod.snd, operation.path = path ∧
      (operation.change = .create ∨ operation.change = .regenerate) := by
  obtain ⟨⟨other, content⟩, member, samePath⟩ := List.mem_map.mp isDocument
  obtain rfl : other = path := samePath
  have inFiles : (other, operationsOn snapshot other (.document content)) ∈
      files rendered snapshot documents :=
    List.mem_map.mpr ⟨(other, .document content),
      List.mem_append_right _ (List.mem_map.mpr ⟨(other, content), member, rfl⟩), rfl⟩
  cases isThere : snapshot.text? other with
  | none =>
      refine ⟨.create other content, List.mem_flatMap.mpr ⟨_, inFiles, ?_⟩, rfl, .inl rfl⟩
      simp [operationsOn_new readable isThere]
  | some existing =>
      refine ⟨.regenerate other content (!content.isHeldBy existing),
        List.mem_flatMap.mpr ⟨_, inFiles, ?_⟩, rfl, .inr rfl⟩
      simp [operationsOn_document readable isThere]

/-- Merging the operations of a plan never fails, even if a document has the path of a
rendered file: the document is written as a whole then. -/
theorem exists_mergedDraft (distinct : (Entries.keys rendered).Nodup)
    (isPlan : plan rendered snapshot documents = .ok operations)
    {group : LooseText × List FileOperation} (member : group ∈ Apply.byPath operations)
    (here : Location) (root : Path) (tree : FileTree) :
    ∃ draft, Apply.mergedDraft tree here root snapshot group.1 group.2 = .ok draft := by
  obtain ⟨-, rfl⟩ := plan_eq_ok_iff.mp isPlan
  rw [Apply.eq_filter_of_mem_byPath member]
  by_cases isDocument : group.1 ∈ Entries.keys documents
  · cases unreadable : snapshot.isUnreadable group.1 with
    | true =>
        have nothing : ((files rendered snapshot documents).flatMap Prod.snd).filter
            (·.path = group.1) = [] := by
          refine List.filter_eq_nil_iff.mpr fun operation inFiles samePath => ?_
          obtain ⟨file, isFile, inFile⟩ := List.mem_flatMap.mp inFiles
          obtain ⟨entry, -, rfl⟩ := List.mem_map.mp isFile
          have onEntry : operation.path = entry.1 := path_of_mem_operationsOn inFile
          have sameEntry := onEntry.symm.trans (of_decide_eq_true samePath)
          rw [operationsOn_unreadable (sameEntry ▸ unreadable)] at inFile
          contradiction
        exact ⟨none, by rw [nothing]; rfl⟩
    | false =>
        obtain ⟨operation, inFiles, samePath, isWhole⟩ :=
          exists_whole_of_document unreadable isDocument
        have inGroup : operation ∈ ((files rendered snapshot documents).flatMap Prod.snd).filter
            (·.path = group.1) := List.mem_filter.mpr ⟨inFiles, by simpa using samePath⟩
        obtain ⟨draft, isDraft⟩ := Option.isSome_iff_exists.mp
          (Apply.isSome_wholeDraft? inGroup isWhole)
        exact ⟨draft, by rw [Apply.mergedDraft, isDraft]⟩
  · rcases filter_path_of_not_document distinct isDocument with nothing | ⟨text, -, sameGroup⟩
    · exact ⟨none, by rw [nothing]; rfl⟩
    · exact ⟨_, by rw [sameGroup]; exact mergedDraft_operationsOn tree here root snapshot _ _⟩

/-- Applying a plan never ends with a conflict. -/
theorem applyOperations_ne_conflict (distinct : (Entries.keys rendered).Nodup)
    (isPlan : plan rendered snapshot documents = .ok operations)
    (faults : LooseText → WriteFaults) (here : Location) (root : Path) (tree : FileTree)
    (conflict : Conflict) :
    (applyOperations faults here root operations snapshot tree).1 ≠ .error (.conflict conflict) := by
  have merged : ∀ group ∈ Apply.byPath operations, ∀ tree, ∃ draft,
      Apply.mergedDraft tree here root snapshot group.1 group.2 = .ok draft :=
    fun group member other => exists_mergedDraft distinct isPlan member here root other
  have noConflict := Apply.writeAll_ne_conflict faults merged snapshot.unreadable tree conflict
  rw [applyOperations]
  split
  next => simp
  next error after isError =>
    rw [isError] at noConflict
    exact fun same => noConflict (congrArg Except.error (Except.error.inj same))

end Plan

/-! ## Steps before the plan -/

/-- A step of a run that does not end with a conflict. -/
def NoConflict {α : Type} (result : Except RunError α) : Prop :=
  ∀ conflict, result ≠ .error (.conflict conflict)

namespace NoConflict

variable {α β : Type}

theorem ok (answer : α) : NoConflict (.ok answer) :=
  nofun

theorem bind {first : Except RunError α} {next : α → Except RunError β}
    (isFirst : NoConflict first) (areNext : ∀ answer, NoConflict (next answer)) :
    NoConflict (first >>= next) := by
  cases first with
  | error error => exact fun conflict same => isFirst conflict (congrArg _ (Except.error.inj same))
  | ok answer => exact areNext answer

theorem asked (answer : Except FileError α) : NoConflict (Sources.asked answer) := by
  cases answer <;> exact nofun

theorem mapM {step : α → Except RunError β} (areSteps : ∀ item, NoConflict (step item))
    (items : List α) : NoConflict (items.mapM step) := by
  induction items with
  | nil => exact nofun
  | cons item items ih =>
      rw [List.mapM_cons]
      exact bind (areSteps item) fun _ => bind ih fun _ => ok _

theorem filterM {step : α → Except RunError Bool} (areSteps : ∀ item, NoConflict (step item))
    (items : List α) : NoConflict (items.filterM step) := by
  have rest (kept : List α) : NoConflict (items.filterAuxM step kept) := by
    induction items generalizing kept with
    | nil => exact ok _
    | cons item items ih => exact bind (areSteps item) fun _ => ih _
  exact bind (rest []) fun _ => ok _

end NoConflict

theorem noConflict_loadProject (tree : FileTree) (here : Location) (root : Path) :
    NoConflict (loadProject tree here root) := by
  refine .bind (.asked _) fun isFile => ?_
  split
  · refine .bind ?_ fun settings => ?_
    · rw [readSettings]
      split <;> rintro conflict ⟨⟩
    · split <;> rintro conflict ⟨⟩
  · rintro conflict ⟨⟩

theorem noConflict_readFile (tree : FileTree) (here : Location) (file : Path) :
    NoConflict (Sources.readFile tree here file) := by
  rw [Sources.readFile]
  split <;> rintro conflict ⟨⟩

theorem noConflict_load (tree : FileTree) (here : Location) (input : Text) (source : LooseText) :
    NoConflict (Sources.load tree here input source) := by
  rw [Sources.load]
  split
  · rintro conflict ⟨⟩
  · refine .bind (.asked _) fun isDirectory => ?_
    split
    · refine .bind (.bind (.asked _) fun names => .filterM (fun file => .asked _) _) fun files => ?_
      split
      · rintro conflict ⟨⟩
      · exact .mapM (noConflict_readFile tree here) _
    · refine .bind (.asked _) fun isFile => ?_
      split
      · exact .bind (noConflict_readFile tree here _) fun file => .ok _
      · rintro conflict ⟨⟩

theorem noConflict_compileApi (heading : Heading) (sources : List SourceText) :
    NoConflict (compileApi heading sources) := by
  unfold compileApi
  split
  · rintro conflict ⟨⟩
  · rintro conflict ⟨⟩
  · split <;> rintro conflict ⟨⟩

theorem noConflict_compileTable (api : Api) : NoConflict (compileTable api) := by
  rw [compileTable]
  split <;> rintro conflict ⟨⟩

theorem noConflict_compileDocuments (settings : ProjectSettings) (api : Api)
    (table : TranslationTable) : NoConflict (compileDocuments settings api table) := by
  unfold compileDocuments
  split <;> rintro conflict ⟨⟩

/-- Gathering what is rendered never ends with a conflict. -/
theorem GenerateRequest.noConflict_gather (around : Surroundings) (request : GenerateRequest)
    (tree : FileTree) : NoConflict (request.gather around tree) := by
  refine .bind (noConflict_loadProject _ _ _) fun stored => ?_
  refine .bind (noConflict_load _ _ _ _) fun sources => ?_
  refine .bind (noConflict_compileApi _ _) fun api => ?_
  exact .bind (noConflict_compileTable _) fun table => .ok _

/-- Rendering never ends with a conflict. -/
theorem GenerateRequest.noConflict_render (around : Surroundings) (request : GenerateRequest)
    (tree : FileTree) : NoConflict (request.render around tree) := by
  refine .bind (noConflict_gather _ _ _) fun gathered => ?_
  exact .bind (noConflict_compileDocuments _ _ _) fun documents => .ok _

/-- The rendered files have distinct paths. -/
theorem GenerateRequest.nodup_keys_render {around : Surroundings} {request : GenerateRequest}
    {tree : FileTree} {rendered : Entries LooseText LooseText} {documents : Entries LooseText Draft}
    (isRendered : request.render around tree = .ok (rendered, documents)) :
    (Entries.keys rendered).Nodup := by
  obtain ⟨gathered, -, isRendered⟩ := bind_eq_ok_iff.mp isRendered
  obtain ⟨made, -, isRendered⟩ := bind_eq_ok_iff.mp isRendered
  obtain ⟨rfl, -⟩ := Prod.mk.inj (Except.ok.inj isRendered)
  exact Entries.nodup_keys_ofPairs _

/-! ## The conflicts of a regeneration -/

/-- A file with its markers in disorder for which a text with regions is rendered. -/
structure Plan.IsConflicted (snapshot : Snapshot) (file : LooseText × LooseText)
    (conflict : Conflict) : Prop where
  readable : snapshot.isUnreadable file.1 = false
  hasRegions : findRegions file.1.label file.2.shown ≠ .ok []
  disorder : ∃ existing, snapshot.text? file.1 = some existing ∧
    findRegions file.1.label existing = .error conflict

/-- A file with its markers in disorder is skipped, with the conflict as the reason. -/
theorem Plan.fileOperations_of_isConflicted {snapshot : Snapshot} {file : LooseText × LooseText}
    {conflict : Conflict} (conflicted : IsConflicted snapshot file conflict)
    {found : List FileOperation} (isFound : fileOperations snapshot file = .ok found) :
    found = [.skip file.1 none (.conflict conflict)] := by
  obtain ⟨path, text⟩ := file
  obtain ⟨existing, isThere, disorder⟩ := conflicted.disorder
  dsimp only at isThere disorder
  have readable : ¬ snapshot.isUnreadable path = true := by simp [conflicted.readable]
  simp only [fileOperations, if_neg readable, isThere] at isFound
  obtain ⟨wanted, isWanted, same⟩ := bind_eq_ok_iff.mp isFound
  have hasRegions : ¬ wanted.isEmpty = true := by
    intro isEmpty
    rw [List.isEmpty_iff.mp isEmpty] at isWanted
    exact conflicted.hasRegions isWanted
  rw [← Except.ok.inj same, regionOperations, if_neg hasRegions, disorder]

/-- Planning ends with a conflict exactly if the plan for what is rendered does. -/
theorem GenerateRequest.plan_eq_conflict_iff {around : Surroundings} {request : GenerateRequest}
    {tree : FileTree} {conflict : Conflict} :
    request.plan around tree = .error (.conflict conflict) ↔
      ∃ rendered documents snapshot, request.render around tree = .ok (rendered, documents) ∧
        Snapshot.capture tree around.workingDirectory request.root
          (Entries.keys rendered ++ Entries.keys documents) = .ok snapshot ∧
        ApiWorkshop.plan rendered snapshot documents = .error conflict := by
  constructor
  · intro isError
    rw [plan] at isError
    cases isRendered : request.render around tree with
    | error error =>
        rw [isRendered] at isError
        have sameError : error = .conflict conflict := Except.error.inj isError
        exact absurd (sameError ▸ isRendered) (noConflict_render around request tree conflict)
    | ok found =>
        obtain ⟨rendered, documents⟩ := found
        cases captured : Snapshot.capture tree around.workingDirectory request.root
            (Entries.keys rendered ++ Entries.keys documents) with
        | error error =>
            simp [isRendered, captured, Sources.asked, Bind.bind, Except.bind] at isError
        | ok snapshot =>
            refine ⟨rendered, documents, snapshot, rfl, captured, ?_⟩
            cases planned : ApiWorkshop.plan rendered snapshot documents with
            | error other =>
                simpa [isRendered, captured, planned, Sources.asked, Bind.bind, Except.bind]
                  using isError
            | ok operations =>
                simp [isRendered, captured, planned, Sources.asked, Bind.bind,
                  Except.bind] at isError
  · rintro ⟨rendered, documents, snapshot, isRendered, captured, planned⟩
    simp [plan, isRendered, captured, planned, Sources.asked, Bind.bind, Except.bind]

/-- A regeneration ends with a conflict exactly if its planning does. -/
theorem generateProject_eq_conflict_iff {around : Surroundings} {request : GenerateRequest}
    {tree : FileTree} {conflict : Conflict} :
    (generateProject around request tree).1 = .error (.conflict conflict) ↔
      request.plan around tree = .error (.conflict conflict) := by
  constructor
  · intro isError
    have regenerated := regenerates around request tree
    generalize generateProject around request tree = outcome at isError regenerated
    cases regenerated with
    | unplanned isPlan => rw [isPlan, Except.error.inj isError]
    | dry _ _ => simp at isError
    | applied _ _ _ => simp at isError
    | @stopped operations snapshot error after isPlan _ isApplied =>
        obtain ⟨rendered, documents, isRendered, -, planned⟩ :=
          GenerateRequest.plan_eq_ok_iff.mp isPlan
        have noConflict := Plan.applyOperations_ne_conflict
          (GenerateRequest.nodup_keys_render isRendered) planned around.faults
          around.workingDirectory request.root tree conflict
        rw [isApplied] at noConflict
        cases error with
        | conflict other =>
            have sameConflict : other = conflict :=
              RunError.conflict.inj (Except.error.inj isError)
            exact absurd (by rw [sameConflict]) noConflict
        | file error => simp [RunError.ofMerge] at isError
        | notText => simp [RunError.ofMerge] at isError
  · intro isPlan
    unfold generateProject
    simp only [isPlan]

/-- A run of a plan that is not dry ends with the effect of the plan, or with an error
for a text that has no bytes. -/
theorem effect_of_plan {around : Surroundings} {request : GenerateRequest} {tree : FileTree}
    {operations : List FileOperation} {snapshot : Snapshot}
    {rendered : Entries LooseText LooseText} {documents : Entries LooseText Draft}
    {place : LooseText → Location}
    (isPlan : request.plan around tree = .ok (operations, snapshot))
    (captured : Snapshot.capture tree around.workingDirectory request.root
      (Entries.keys rendered ++ Entries.keys documents) = .ok snapshot)
    (planned : plan rendered snapshot documents = .ok operations)
    (allOrNothing : ∀ path, (around.faults path).AllOrNothing) (wellFormed : tree.WellFormed)
    (isHere : tree.at? around.workingDirectory = some .directory)
    (places : Places tree around.workingDirectory request.root
      (Entries.keys rendered ++ Entries.keys documents) place)
    (notDry : request.dryRun = false) :
    (∀ result after, generateProject around request tree = (.ok result, after) →
      result.report.operations = operations ∧
      Effect place (Entries.keys rendered ++ Entries.keys documents) snapshot result.report tree
        after) ∧
    ∀ error, (generateProject around request tree).1 = .error error →
      (∃ file ∈ rendered, file.2.isWhole = false) ∨
        ∃ document ∈ documents, document.2.whole = false := by
  rcases generateProject_of_plan isPlan notDry with
    ⟨report, last, isApplied, isRun⟩ | ⟨error, last, isApplied, isRun⟩
  · rw [isRun]
    obtain ⟨rfl, keysFailures, history⟩ := Plan.history_of_applyOperations allOrNothing
      wellFormed isHere places planned isApplied
    have isSnapshot := Snapshot.eq_ofNodes_of_capture wellFormed places captured
    refine ⟨fun result after isResult => ?_, fun _ isError => by simp at isError⟩
    obtain ⟨same, rfl⟩ := Prod.mk.inj isResult
    obtain rfl := Except.ok.inj same
    exact ⟨rfl, Plan.effect_of_history places isSnapshot planned history keysFailures⟩
  · rw [isRun]
    exact ⟨fun _ _ isResult => by simp at isResult, fun _ _ => Plan.exists_loose_of_stopped <|
      Plan.stopped_of_applyOperations allOrNothing wellFormed isHere places planned isApplied⟩

/-- A skipped file keeps its text. -/
theorem Effect.fileAt?_of_isConflicted {place : LooseText → Location} {snapshot : Snapshot}
    {rendered : Entries LooseText LooseText} {documents : Entries LooseText Draft}
    {report : Report} {tree after : FileTree}
    (effect : Effect place (Entries.keys rendered ++ Entries.keys documents) snapshot report tree
      after)
    (distinct : (Entries.keys rendered ++ Entries.keys documents).Nodup)
    (planned : plan rendered snapshot documents = .ok report.operations)
    {file : LooseText × LooseText} (isFile : file ∈ rendered) {conflict : Conflict}
    (conflicted : Plan.IsConflicted snapshot file conflict) :
    after.fileAt? (place file.1) = tree.fileAt? (place file.1) := by
  by_cases hasFailed : file.1 ∈ Entries.keys report.failures
  · exact effect.failed file.1 hasFailed
  · have isCandidate : (file.1, Plan.Candidate.rendered file.2) ∈
        Plan.candidates rendered documents :=
      Plan.rendered_mem_candidates_iff.mpr isFile
    have isPath : file.1 ∈ Entries.keys rendered ++ Entries.keys documents :=
      List.mem_append_left _ (List.mem_map_of_mem isFile)
    obtain ⟨found, isFound⟩ := (Plan.plan_eq_ok_iff.mp planned).1 file isFile
    have skipped := Plan.fileOperations_of_isConflicted conflicted isFound
    have onPath := Plan.filter_path_plan distinct planned isCandidate
    rw [Plan.operationsOn, isFound, skipped] at onPath
    rw [effect.planned file.1 isPath hasFailed, onPath]
    rfl

/-- A regeneration ends with a conflict exactly if the rendered text of a file that
is there has its own markers in disorder.  Otherwise each file is planned for by
itself, a file with its markers in disorder is skipped with the conflict as the
reason and keeps its text, and the others hold what was planned for them. -/
theorem generateProject_conflicts (around : Surroundings) (request : GenerateRequest)
    (tree : FileTree) :
    ((∃ conflict, (generateProject around request tree).1 = .error (.conflict conflict)) ↔
      ∃ rendered documents snapshot, request.render around tree = .ok (rendered, documents) ∧
        Snapshot.capture tree around.workingDirectory request.root
          (Entries.keys rendered ++ Entries.keys documents) = .ok snapshot ∧
        ∃ file ∈ rendered, ∃ conflict, Plan.IsDisordered snapshot file conflict) ∧
    ∀ operations snapshot, request.plan around tree = .ok (operations, snapshot) →
      ∃ rendered documents, request.render around tree = .ok (rendered, documents) ∧
        operations = (Plan.files rendered snapshot documents).flatMap Prod.snd ∧
        (∀ file ∈ rendered, ∀ conflict, Plan.IsConflicted snapshot file conflict →
          Plan.fileOperations snapshot file = .ok [.skip file.1 none (.conflict conflict)]) ∧
        ∀ place, (∀ path, (around.faults path).AllOrNothing) → tree.WellFormed →
          tree.at? around.workingDirectory = some .directory →
          Places tree around.workingDirectory request.root
            (Entries.keys rendered ++ Entries.keys documents) place → request.dryRun = false →
          (∀ result after, generateProject around request tree = (.ok result, after) →
            result.report.operations = operations ∧
            Effect place (Entries.keys rendered ++ Entries.keys documents) snapshot
              result.report tree after ∧
            ∀ file ∈ rendered, ∀ conflict, Plan.IsConflicted snapshot file conflict →
              after.fileAt? (place file.1) = tree.fileAt? (place file.1)) ∧
          ∀ error, (generateProject around request tree).1 = .error error →
            (∃ file ∈ rendered, file.2.isWhole = false) ∨
              ∃ document ∈ documents, document.2.whole = false := by
  refine ⟨?_, fun operations snapshot isPlan => ?_⟩
  · simp only [generateProject_eq_conflict_iff, GenerateRequest.plan_eq_conflict_iff]
    constructor
    · rintro ⟨conflict, rendered, documents, snapshot, isRendered, captured, failed⟩
      exact ⟨rendered, documents, snapshot, isRendered, captured,
        Plan.exists_plan_eq_error_iff.mp ⟨conflict, failed⟩⟩
    · rintro ⟨rendered, documents, snapshot, isRendered, captured, disordered⟩
      obtain ⟨conflict, failed⟩ := Plan.exists_plan_eq_error_iff.mpr disordered
      exact ⟨conflict, rendered, documents, snapshot, isRendered, captured, failed⟩
  · obtain ⟨rendered, documents, isRendered, captured, planned⟩ :=
      GenerateRequest.plan_eq_ok_iff.mp isPlan
    refine ⟨rendered, documents, isRendered, (Plan.plan_eq_ok_iff.mp planned).2, ?_, ?_⟩
    · intro file isFile conflict conflicted
      obtain ⟨found, isFound⟩ := (Plan.plan_eq_ok_iff.mp planned).1 file isFile
      rw [isFound, Plan.fileOperations_of_isConflicted conflicted isFound]
    · intro place allOrNothing wellFormed isHere places notDry
      obtain ⟨effect, loose⟩ :=
        effect_of_plan isPlan captured planned allOrNothing wellFormed isHere places notDry
      refine ⟨fun result after isResult => ?_, loose⟩
      obtain ⟨rfl, hasEffect⟩ := effect result after isResult
      refine ⟨rfl, hasEffect, fun file isFile conflict conflicted => ?_⟩
      exact hasEffect.fileAt?_of_isConflicted places.nodup planned isFile conflicted

/-! ## Projects with markers in disorder -/

namespace MarkedProject

/-- A project with settings, a definition and a page. -/
def tree (definition page : Text) : FileTree :=
  [(["specforge.json"], .file (.text "\x7b\"name\":\"p\",\"package\":\"p\"\x7d".toList)),
    (["config"], .directory), (["config", "openapi"], .directory),
    (["config", "openapi", "a.toml"], .file (.text definition)),
    (["README.md"], .file (.text page))]

/-- The project with a region of its page left open. -/
def openTree : FileTree :=
  tree [] "# p\n<!-- specforge:begin endpoints -->\n".toList

/-- The project with a marker in the description of its API. -/
def nestedTree : FileTree :=
  tree "description = \"<!-- specforge:begin notes -->\"\n".toList "# p\n".toList

def page : LooseText :=
  LooseText.ofString "README.md"

def openConflict : Conflict :=
  ⟨"README.md", .unclosed "endpoints"⟩

/-- Whether a run that is planned for its snapshot and its texts is one for a page with
regions, of which one is left open on disk, and ends well. -/
def endsWell (planned : Except RunError (List FileOperation × Snapshot))
    (texts : Except RunError (Entries LooseText LooseText × Entries LooseText Draft))
    (outcome : Except RunError ProjectResult × FileTree) : Bool :=
  match planned, texts, outcome with
  | .ok (_, snapshot), .ok (rendered, documents), (.ok _, _) =>
      decide (Entries.keys rendered ++ Entries.keys documents = BareProject.paths) &&
      match Entries.get? page rendered, snapshot.text? page with
      | some text, some existing =>
          !snapshot.isUnreadable page &&
          (match findRegions page.label text.shown with
            | .ok wanted => !wanted.isEmpty
            | .error _ => false) &&
          match findRegions page.label existing with
          | .ok _ => false
          | .error conflict => decide (conflict = openConflict)
      | _, _ => false
  | _, _, _ => false

theorem exists_of_endsWell {planned : Except RunError (List FileOperation × Snapshot)}
    {texts : Except RunError (Entries LooseText LooseText × Entries LooseText Draft)}
    {outcome : Except RunError ProjectResult × FileTree}
    (passes : endsWell planned texts outcome = true) :
    ∃ operations snapshot rendered documents result after text,
      planned = .ok (operations, snapshot) ∧ texts = .ok (rendered, documents) ∧
      outcome = (.ok result, after) ∧
      Entries.keys rendered ++ Entries.keys documents = BareProject.paths ∧
      (page, text) ∈ rendered ∧ Plan.IsConflicted snapshot (page, text) openConflict := by
  unfold endsWell at passes
  split at passes
  next operations snapshot rendered documents result after =>
    obtain ⟨paths, passes⟩ := Bool.and_eq_true_iff.mp passes
    split at passes
    next text existing isText isThere =>
      simp only [Bool.and_eq_true, Bool.not_eq_true'] at passes
      obtain ⟨⟨readable, hasRegions⟩, disorder⟩ := passes
      refine ⟨operations, snapshot, rendered, documents, result, after, text, rfl, rfl, rfl,
        of_decide_eq_true paths, Entries.mem_of_get? isText, readable, ?_, existing, isThere, ?_⟩
      · intro noRegions
        simp [noRegions] at hasRegions
      · split at disorder
        · exact absurd disorder Bool.false_ne_true
        next conflict isError => exact isError.trans (congrArg _ (of_decide_eq_true disorder))
    next => exact absurd passes Bool.false_ne_true
  next => exact absurd passes Bool.false_ne_true

/-- The tree with the open region is a tree, and a regeneration of it ends well. -/
theorem evaluated :
    (∀ entry ∈ openTree, ∀ name ∈ entry.1.getLast?,
      openTree.at? entry.1.dropLast = some .directory ∧ FileTree.IsName name) ∧
    endsWell (BareProject.request.plan BareProject.around openTree)
      (BareProject.request.render BareProject.around openTree)
      (generateProject BareProject.around BareProject.request openTree) = true := by
  decide +kernel

/-- The project has the directories of the bare one. -/
theorem keeps_directories (definition page : Text) {location : Location}
    (isDirectory : BareProject.tree.at? location = some .directory) :
    (tree definition page).at? location = some .directory := by
  rw [FileTree.at?] at isDirectory ⊢
  simp only [BareProject.tree, tree, Entries.get?] at isDirectory ⊢
  split_ifs at isDirectory ⊢
  all_goals simp_all

theorem places : Places openTree [] ⟨.relative, []⟩ BareProject.paths BareProject.place :=
  BareProject.places.of_directories fun _ => keeps_directories _ _

end MarkedProject

/-- A region that is left open in the page of a project makes the page a skipped one,
which keeps its text. -/
theorem generateProject_conflicts_of_openTree :
    ∃ result after, generateProject BareProject.around BareProject.request MarkedProject.openTree =
        (.ok result, after) ∧
      FileOperation.skip MarkedProject.page none (.conflict MarkedProject.openConflict) ∈
        result.report.operations ∧
      after.fileAt? (BareProject.place MarkedProject.page) =
        MarkedProject.openTree.fileAt? (BareProject.place MarkedProject.page) := by
  obtain ⟨operations, snapshot, rendered, documents, result, after, text, isPlan, isRendered,
    isResult, paths, isText, conflicted⟩ := MarkedProject.exists_of_endsWell
      MarkedProject.evaluated.2
  obtain ⟨made, madeDocuments, isMade, sameOperations, skips, run⟩ := (generateProject_conflicts
    BareProject.around BareProject.request MarkedProject.openTree).2 operations snapshot isPlan
  obtain ⟨rfl, rfl⟩ := Prod.mk.inj (Except.ok.inj (isMade.symm.trans isRendered))
  have wellFormed : MarkedProject.openTree.WellFormed :=
    FileTree.wellFormed_of_entries MarkedProject.evaluated.1
  have places : Places MarkedProject.openTree BareProject.around.workingDirectory
      BareProject.request.root (Entries.keys made ++ Entries.keys madeDocuments)
      BareProject.place := by
    rw [paths]
    exact MarkedProject.places
  obtain ⟨sameReport, -, kept⟩ :=
    (run BareProject.place BareProject.allOrNothing wellFormed rfl places rfl).1 result after
      isResult
  have isCandidate : (MarkedProject.page, Plan.Candidate.rendered text) ∈
      Plan.candidates made madeDocuments :=
    List.mem_append_left _ (List.mem_map.mpr ⟨(MarkedProject.page, text), isText, rfl⟩)
  refine ⟨result, after, isResult, ?_, kept _ isText _ conflicted⟩
  rw [sameReport, sameOperations]
  refine List.mem_flatMap.mpr ⟨_, List.mem_map_of_mem isCandidate, ?_⟩
  rw [Plan.operationsOn, skips _ isText _ conflicted]
  exact List.mem_singleton_self _

/-- A description with a marker in it, of the API of a project that has its page, ends
the regeneration with a conflict. -/
theorem generateProject_eq_conflict_of_markedDescription :
    (generateProject BareProject.around BareProject.request MarkedProject.nestedTree).1 =
      .error (.conflict ⟨"README.md", .nested 17 "endpoints" "notes"⟩) := by
  have evaluated : (match
        (generateProject BareProject.around BareProject.request MarkedProject.nestedTree).1 with
      | .error (.conflict conflict) =>
          decide (conflict = ⟨"README.md", .nested 17 "endpoints" "notes"⟩)
      | _ => false) = true := by decide +kernel
  split at evaluated
  next conflict isError => rw [isError, of_decide_eq_true evaluated]
  next => exact absurd evaluated Bool.false_ne_true

end ApiWorkshop
