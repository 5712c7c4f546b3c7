import ApiWorkshop.Proofs.Api.Reading
import ApiWorkshop.Proofs.Files.Kept
import ApiWorkshop.Run.Generate

/-!
# What a regeneration reads

A regeneration reads the settings of the project and the definitions that they
name.  If a tree is kept by another one and no definition file is new there, a
regeneration that gets as far as its files in the first tree renders the same
files in the second.
-/

namespace ApiWorkshop

/-! ## Filters that look at files -/

theorem filterM_congr {α : Type} {step other : α → Except RunError Bool} {items : List α}
    (same : ∀ item ∈ items, other item = step item) : items.filterM other = items.filterM step := by
  have rest (kept : List α) : items.filterAuxM other kept = items.filterAuxM step kept := by
    induction items generalizing kept with
    | nil => rfl
    | cons item items ih =>
        simp only [List.filterAuxM, same item List.mem_cons_self,
          ih fun next member => same next (List.mem_cons_of_mem item member)]
  rw [List.filterM, List.filterM, rest]

/-- Items for which a step says no can be left out beforehand. -/
theorem filterM_map_filter {α β : Type} {step : β → Except RunError Bool} {view : α → β}
    {items : List α} (keep : α → Bool)
    (dropped : ∀ item ∈ items, keep item = false → step (view item) = .ok false) :
    (items.map view).filterM step = ((items.filter keep).map view).filterM step := by
  have rest (kept : List β) : (items.map view).filterAuxM step kept =
      ((items.filter keep).map view).filterAuxM step kept := by
    induction items generalizing kept with
    | nil => rfl
    | cons item items ih =>
        obtain ⟨isDropped, restDropped⟩ := List.forall_mem_cons.mp dropped
        cases isKept : keep item with
        | false =>
            rw [List.filter_cons_of_neg (by simp [isKept]), ← ih restDropped]
            simp [List.filterAuxM, isDropped isKept, Bind.bind, Except.bind]
        | true =>
            rw [List.filter_cons_of_pos isKept]
            simp only [List.map_cons, List.filterAuxM, ih restDropped]
  rw [List.filterM, List.filterM, rest]

theorem subset_of_filterAuxM {α : Type} {step : α → Except RunError Bool}
    {items before after : List α} (isAfter : items.filterAuxM step before = .ok after) :
    after ⊆ items ++ before := by
  induction items generalizing before with
  | nil =>
      obtain rfl := Except.ok.inj isAfter
      exact List.Subset.refl _
  | cons item items ih =>
      cases isStep : step item with
      | error error => simp [List.filterAuxM, isStep, Bind.bind, Except.bind] at isAfter
      | ok keep =>
          simp only [List.filterAuxM, isStep, Bind.bind, Except.bind] at isAfter
          intro found member
          have inRest := ih isAfter member
          cases keep <;> grind

theorem subset_of_filterM {α : Type} {step : α → Except RunError Bool} {items kept : List α}
    (isKept : items.filterM step = .ok kept) : kept ⊆ items := by
  cases isAll : items.filterAuxM step [] with
  | error error => simp [List.filterM, isAll, Bind.bind, Except.bind] at isKept
  | ok after =>
      simp only [List.filterM, isAll, Bind.bind, Except.bind] at isKept
      obtain rfl := Except.ok.inj isKept
      simpa using subset_of_filterAuxM isAll

section

variable {tree after : FileTree} {here : Location}

open FileTree

/-! ## Settings -/

theorem loadProject_of_kept (kept : Kept tree after) {root : Path} {settings : ProjectSettings}
    (loaded : loadProject tree here root = .ok settings) :
    loadProject after here root = .ok settings := by
  cases isThere : tree.isFile here (root.join (Path.ofString projectFileName)) with
  | error error => simp [loadProject, isThere, Sources.asked, Bind.bind, Except.bind] at loaded
  | ok isFile =>
      cases isFile with
      | false => simp [loadProject, isThere, Sources.asked, Bind.bind, Except.bind] at loaded
      | true =>
          obtain ⟨content, found⟩ := exists_file_of_isFile isThere
          have sameText := readText_congr ((kept.node_eq found).trans found.symm)
          rw [loadProject, (kept.isFile_eq isThere).1, readSettings, sameText]
          rwa [loadProject, isThere, readSettings] at loaded

/-! ## Definitions -/

namespace Sources

/-- What is new under the name of a definition file in the directory at a path is a
directory that can be looked up. -/
def NoneNew (here : Location) (directory : Path) (tree after : FileTree) : Prop :=
  ∀ place name, tree.locate here directory = .ok place → isDefinitionName name = true →
    tree.at? (place ++ [name]) = none → after.at? (place ++ [name]) ≠ none →
      after.at? (place ++ [name]) = some .directory ∧
        IsShort (directory.join ⟨.relative, [LooseText.ofString name]⟩)

theorem asked_eq_ok_iff {α : Type} {result : Except FileError α} {answer : α} :
    asked result = .ok answer ↔ result = .ok answer := by
  cases result <;> simp [asked]

theorem ne_step_of_isDefinitionName {name : String} (isDefinition : isDefinitionName name = true) :
    name ≠ ".." := by
  rintro rfl
  exact absurd isDefinition (by decide)

theorem readFile_congr {file : Path} (same : node after here file = node tree here file) :
    readFile after here file = readFile tree here file := by
  rw [readFile, readFile, readLines_congr same]

/-- Names are in order after some have been left out as well. -/
theorem filter_mergeSort_eq_of_perm {first second : List String} {keep : String → Bool}
    (perm : (first.filter keep).Perm second) :
    (first.mergeSort fun one other => decide (one ≤ other)).filter keep =
      second.mergeSort fun one other => decide (one ≤ other) := by
  have isSorted (names : List String) :
      (names.mergeSort fun one other => decide (one ≤ other)).Pairwise (· ≤ ·) := by
    simpa using @List.pairwise_mergeSort String (fun one other => decide (one ≤ other))
      (fun _ _ _ => by simpa using String.le_trans) (fun _ _ => by simpa using String.le_total _ _)
      names
  refine List.Perm.eq_of_pairwise (fun _ _ _ _ => String.le_antisymm) ((isSorted _).filter keep)
    (isSorted _) ?_
  exact ((List.mergeSort_perm first _).filter keep).trans
    (perm.trans (List.mergeSort_perm second _).symm)

variable {directory : Path}

theorem filesIn_eq {names : List String} (areNames : tree.namesIn here directory = .ok names) :
    filesIn tree here directory =
      (((names.filter isDefinitionName).mergeSort fun one other => decide (one ≤ other)).map
        fun name => directory.join ⟨.relative, [LooseText.ofString name]⟩).filterM
          fun file => asked (tree.isFile here file) := by
  rw [filesIn, areNames]
  rfl

/-- The definition files of a directory are found as before, and each stands for what
it stood for. -/
theorem filesIn_of_kept (distinct : (Entries.keys tree).Nodup)
    (afterDistinct : (Entries.keys after).Nodup) (kept : Kept tree after)
    (noneNew : NoneNew here directory tree after)
    (isDirectory : tree.isDirectory here directory = .ok true) :
    filesIn after here directory = filesIn tree here directory ∧
      ∀ files, filesIn tree here directory = .ok files →
        ∀ file ∈ files, node after here file = node tree here file := by
  obtain ⟨place, located, isThere⟩ := exists_place_of_isDirectory isDirectory
  have isThereAfter := kept _ _ isThere
  have names : tree.namesIn here directory = .ok (children tree place) := by
    simp [namesIn, located, isThere, Bind.bind, Except.bind]
  have namesAfter : after.namesIn here directory = .ok (children after place) := by
    simp [namesIn, kept.locate_eq located, isThereAfter, Bind.bind, Except.bind]
  have sameSorted : (((children after place).filter isDefinitionName).mergeSort
        fun one other => decide (one ≤ other)).filter
          (fun name => (tree.at? (place ++ [name])).isSome) =
      ((children tree place).filter isDefinitionName).mergeSort
        fun one other => decide (one ≤ other) := by
    refine filter_mergeSort_eq_of_perm ?_
    rw [List.filter_comm]
    exact (perm_children distinct afterDistinct kept place).filter isDefinitionName
  have sameNodes : ∀ file ∈ (((children tree place).filter isDefinitionName).mergeSort
      fun first second => decide (first ≤ second)).map
        (fun name => directory.join ⟨.relative, [LooseText.ofString name]⟩),
      node after here file = node tree here file := by
    intro file isFile
    obtain ⟨name, member, rfl⟩ := List.mem_map.mp isFile
    rw [List.mem_mergeSort, List.mem_filter, mem_children_iff] at member
    exact kept.node_child_eq located isThere rfl (by simp) (ne_step_of_isDefinitionName member.2)
      member.1
  constructor
  · -- a new directory with the name of a definition file is asked for and is no file
    rw [filesIn_eq names, filesIn_eq namesAfter, filterM_map_filter
      (fun name => (tree.at? (place ++ [name])).isSome) fun name member isNew => ?_, sameSorted]
    · refine filterM_congr fun file isFile => ?_
      simp only [FileTree.isFile, holds_congr (sameNodes file isFile)]
    · rw [List.mem_mergeSort, List.mem_filter, mem_children_iff] at member
      obtain ⟨isDirectoryToo, short⟩ :=
        noneNew place name located member.2 (by simpa using isNew) member.1
      rw [isFile_child_of_directory (kept.locate_eq located) isThereAfter rfl (by simp)
        (ne_step_of_isDefinitionName member.2) short isDirectoryToo]
      rfl
  · intro files isFiles file member
    rw [filesIn_eq names] at isFiles
    exact sameNodes file (subset_of_filterM isFiles member)

theorem mapM_congr {α β : Type} {step other : α → Except RunError β} {items : List α}
    (same : ∀ item ∈ items, other item = step item) : items.mapM other = items.mapM step := by
  induction items with
  | nil => rfl
  | cons item items ih =>
      simp only [List.mapM_cons, same item List.mem_cons_self,
        ih fun next member => same next (List.mem_cons_of_mem item member)]

theorem readDirectory_of_kept (distinct : (Entries.keys tree).Nodup)
    (afterDistinct : (Entries.keys after).Nodup) (kept : Kept tree after)
    (noneNew : NoneNew here directory tree after)
    (isDirectory : tree.isDirectory here directory = .ok true) :
    readDirectory after here directory = readDirectory tree here directory := by
  obtain ⟨sameFiles, sameNodes⟩ :=
    filesIn_of_kept distinct afterDistinct kept noneNew isDirectory
  rw [readDirectory, readDirectory, sameFiles]
  cases isFiles : filesIn tree here directory with
  | error error => rfl
  | ok files =>
      simp only [Bind.bind, Except.bind,
        mapM_congr fun file member => readFile_congr (sameNodes files isFiles file member)]

/-- The definitions that a source names are read as before. -/
theorem load_of_kept (distinct : (Entries.keys tree).Nodup)
    (afterDistinct : (Entries.keys after).Nodup) (kept : Kept tree after) {source : LooseText}
    (noneNew : NoneNew here (Path.ofText source) tree after) {input : Text}
    {sources : List SourceText} (loaded : load tree here input source = .ok sources) :
    load after here input source = .ok sources := by
  rw [load] at loaded ⊢
  split at loaded
  next isInput => rwa [if_pos isInput]
  next notInput =>
    rw [if_neg notInput]
    cases isThere : tree.isDirectory here (Path.ofText source) with
    | error error => simp [isThere, asked, Bind.bind, Except.bind] at loaded
    | ok isDirectory =>
        cases isDirectory with
        | true =>
            have isThereAfter : after.isDirectory here (Path.ofText source) = .ok true :=
              kept.holds_eq isThere
            simp only [isThereAfter, asked, Bind.bind, Except.bind, if_true,
              readDirectory_of_kept distinct afterDistinct kept noneNew isThere]
            simpa [isThere, asked, Bind.bind, Except.bind] using loaded
        | false =>
            cases isThereFile : tree.isFile here (Path.ofText source) with
            | error error =>
                simp [isThere, isThereFile, asked, Bind.bind, Except.bind] at loaded
            | ok isFile =>
                cases isFile with
                | false =>
                    simp [isThere, isThereFile, asked, unavailable, Bind.bind, Except.bind]
                      at loaded
                | true =>
                    obtain ⟨isFileAfter, noDirectoryAfter⟩ := kept.isFile_eq isThereFile
                    obtain ⟨content, found⟩ := exists_file_of_isFile isThereFile
                    have sameFile := readFile_congr ((kept.node_eq found).trans found.symm)
                    simp only [isThere, isThereFile, asked, Bind.bind, Except.bind] at loaded
                    simpa [isFileAfter, noDirectoryAfter, asked, Bind.bind, Except.bind, sameFile]
                      using loaded

end Sources

/-! ## Rendering -/

/-- The source of the definitions that settings name. -/
def GenerateRequest.source (around : Surroundings) (request : GenerateRequest)
    (stored : ProjectSettings) : LooseText :=
  (request.root.join (Path.ofText (stored.resolve around.environment request.apiDirectory
    request.openapiOutput).apiDirectory)).text

namespace GenerateRequest

variable {around : Surroundings} {request : GenerateRequest} {settings : ProjectSettings} {api : Api}
  {table : TranslationTable} {rendered : Entries LooseText LooseText}
  {documents : Entries LooseText Draft}

theorem gather_eq_ok_iff :
    request.gather around tree = .ok (settings, api, table) ↔
      ∃ stored sources, loadProject tree around.workingDirectory request.root = .ok stored ∧
        Sources.load tree around.workingDirectory around.input (request.source around stored) =
          .ok sources ∧
        stored.resolve around.environment request.apiDirectory request.openapiOutput = settings ∧
        compileApi settings.heading sources = .ok api ∧ compileTable api = .ok table := by
  rw [gather, bind_eq_ok_iff]
  refine exists_congr fun stored => ?_
  rw [exists_and_left]
  refine and_congr_right fun loaded => ?_
  rw [bind_eq_ok_iff]
  refine exists_congr fun sources => and_congr_right fun areSources => ?_
  rw [bind_eq_ok_iff]
  constructor
  · rintro ⟨found, isApi, isRest⟩
    obtain ⟨made, isTable, same⟩ := bind_eq_ok_iff.mp isRest
    obtain ⟨rfl, rest⟩ := Prod.mk.inj (Except.ok.inj same)
    obtain ⟨rfl, rfl⟩ := Prod.mk.inj rest
    exact ⟨rfl, isApi, isTable⟩
  · rintro ⟨rfl, isApi, isTable⟩
    exact ⟨api, isApi, bind_eq_ok_iff.mpr ⟨table, isTable, rfl⟩⟩

theorem render_eq_ok_iff :
    request.render around tree = .ok (rendered, documents) ↔
      ∃ settings api table, request.gather around tree = .ok (settings, api, table) ∧
        compileDocuments settings api table = .ok documents ∧
        renderProject settings api table = rendered := by
  rw [render, bind_eq_ok_iff, Prod.exists]
  refine exists_congr fun settings => ?_
  rw [Prod.exists]
  refine exists_congr fun api => exists_congr fun table => and_congr_right fun _ => ?_
  rw [bind_eq_ok_iff]
  constructor
  · rintro ⟨made, areDocuments, same⟩
    obtain ⟨rfl, rfl⟩ := Prod.mk.inj (Except.ok.inj same)
    exact ⟨areDocuments, rfl⟩
  · rintro ⟨areDocuments, rfl⟩
    exact ⟨documents, areDocuments, rfl⟩

/-- A plan is made from what is rendered and from the files that are there. -/
theorem plan_eq_ok_iff {operations : List FileOperation} {snapshot : Snapshot} :
    request.plan around tree = .ok (operations, snapshot) ↔
      ∃ rendered documents, request.render around tree = .ok (rendered, documents) ∧
        Snapshot.capture tree around.workingDirectory request.root
          (Entries.keys rendered ++ Entries.keys documents) = .ok snapshot ∧
        ApiWorkshop.plan rendered snapshot documents = .ok operations := by
  rw [plan, bind_eq_ok_iff, Prod.exists]
  refine exists_congr fun rendered => exists_congr fun documents => and_congr_right fun _ => ?_
  rw [bind_eq_ok_iff]
  constructor
  · rintro ⟨found, asked, isPlan⟩
    cases planned : ApiWorkshop.plan rendered found documents with
    | error conflict => simp [planned] at isPlan
    | ok made =>
        simp only [planned, Except.ok.injEq, Prod.mk.injEq] at isPlan
        obtain ⟨rfl, rfl⟩ := isPlan
        exact ⟨Sources.asked_eq_ok_iff.mp asked, planned⟩
  · rintro ⟨captured, planned⟩
    exact ⟨snapshot, Sources.asked_eq_ok_iff.mpr captured, by simp only [planned]⟩

/-- What is gathered in a tree is gathered in every tree that keeps it without new
definition files. -/
theorem gather_of_kept (distinct : (Entries.keys tree).Nodup)
    (afterDistinct : (Entries.keys after).Nodup) (kept : Kept tree after)
    (noneNew : ∀ stored, loadProject tree around.workingDirectory request.root = .ok stored →
      Sources.NoneNew around.workingDirectory (Path.ofText (request.source around stored)) tree
        after)
    (gathered : request.gather around tree = .ok (settings, api, table)) :
    request.gather around after = .ok (settings, api, table) := by
  obtain ⟨stored, sources, loaded, areSources, compiled⟩ := gather_eq_ok_iff.mp gathered
  exact gather_eq_ok_iff.mpr ⟨stored, sources, loadProject_of_kept kept loaded,
    Sources.load_of_kept distinct afterDistinct kept (noneNew stored loaded) areSources, compiled⟩

/-- What is rendered is rendered again. -/
theorem render_of_kept (distinct : (Entries.keys tree).Nodup)
    (afterDistinct : (Entries.keys after).Nodup) (kept : Kept tree after)
    (noneNew : ∀ stored, loadProject tree around.workingDirectory request.root = .ok stored →
      Sources.NoneNew around.workingDirectory (Path.ofText (request.source around stored)) tree
        after)
    (isRendered : request.render around tree = .ok (rendered, documents)) :
    request.render around after = .ok (rendered, documents) := by
  obtain ⟨settings, api, table, gathered, compiled⟩ := render_eq_ok_iff.mp isRendered
  exact render_eq_ok_iff.mpr ⟨settings, api, table,
    gather_of_kept distinct afterDistinct kept noneNew gathered, compiled⟩

end GenerateRequest

end

end ApiWorkshop
