import ApiWorkshop.Merge.Apply
import ApiWorkshop.Proofs.Entries

/-!
# The operations of a plan by path

A plan lists its operations file by file.  When the rendered files and the
documents all have different paths, grouping the operations by path gives back
what was planned for each file, in the order of the plan.
-/

namespace ApiWorkshop

namespace Apply

/-- Operations on one path that is new to some groups make up a further group. -/
theorem foldl_put_group {groups : Entries LooseText (List FileOperation)} {path : LooseText}
    (isNew : path ∉ Entries.keys groups) (before operations : List FileOperation)
    (samePath : ∀ operation ∈ operations, operation.path = path) :
    operations.foldl
        (fun groups operation =>
          let others := (Entries.get? operation.path groups).getD []
          Entries.put operation.path (others ++ [operation]) groups)
        (groups ++ [(path, before)]) =
      groups ++ [(path, before ++ operations)] := by
  induction operations generalizing before with
  | nil => simp
  | cons operation operations ih =>
      obtain rfl := samePath operation (by simp)
      have step := ih (before ++ [operation])
        fun other member => samePath other (List.mem_cons_of_mem operation member)
      rw [List.foldl_cons]
      simp only [Entries.get?_append_of_not_mem _ isNew, Entries.put_append_of_not_mem _ _ isNew]
      simpa [Entries.get?, Entries.put] using step

/-- Grouping what was listed file by file gives back the files that have
operations. -/
theorem byPath_flatMap (files : Entries LooseText (List FileOperation))
    (distinct : (Entries.keys files).Nodup)
    (samePath : ∀ file ∈ files, ∀ operation ∈ file.2, operation.path = file.1) :
    byPath (files.flatMap Prod.snd) = files.filter (!·.2.isEmpty) := by
  suffices ∀ groups : Entries LooseText (List FileOperation),
      (∀ path ∈ Entries.keys files, path ∉ Entries.keys groups) →
      (files.flatMap Prod.snd).foldl
          (fun groups operation =>
            let others := (Entries.get? operation.path groups).getD []
            Entries.put operation.path (others ++ [operation]) groups)
          groups =
        groups ++ files.filter (!·.2.isEmpty) from this [] (by simp [Entries.keys])
  induction files with
  | nil => simp
  | cons file files ih =>
      intro groups isNew
      obtain ⟨path, operations⟩ := file
      obtain ⟨pathNew, restDistinct⟩ := List.nodup_cons.mp distinct
      have pathApart := isNew path (by simp [Entries.keys])
      have tail := ih restDistinct
        fun other member => samePath other (List.mem_cons_of_mem _ member)
      rw [List.flatMap_cons, List.foldl_append]
      cases operations with
      | nil =>
          simpa using tail groups fun other member =>
            isNew other (by simpa [Entries.keys] using Or.inr member)
      | cons operation operations =>
          have ofPath := samePath (path, operation :: operations) (by simp)
          obtain rfl := ofPath operation (by simp)
          have started := foldl_put_group pathApart [operation] operations
            fun other member => ofPath other (List.mem_cons_of_mem operation member)
          simp only [List.foldl_cons]
          rw [Entries.put_of_not_mem _ pathApart, Entries.get?_of_not_mem pathApart,
            Option.getD_none, List.nil_append, started, tail]
          · simp
          · intro other member
            simp only [Entries.keys_append, List.mem_append, not_or]
            refine ⟨isNew other (by simpa [Entries.keys] using Or.inr member), ?_⟩
            simp only [Entries.keys, List.map_cons, List.map_nil, List.mem_singleton]
            rintro rfl
            exact pathNew member

/-- The operations on the path of a file are those that were listed for it. -/
theorem filter_flatMap_path {files : Entries LooseText (List FileOperation)}
    (distinct : (Entries.keys files).Nodup)
    (samePath : ∀ file ∈ files, ∀ operation ∈ file.2, operation.path = file.1)
    {file : LooseText × List FileOperation} (member : file ∈ files) :
    (files.flatMap Prod.snd).filter (·.path = file.1) = file.2 := by
  induction files with
  | nil => simp at member
  | cons first files ih =>
      obtain ⟨firstNew, restDistinct⟩ := List.nodup_cons.mp distinct
      have restPath := fun other inRest => samePath other (List.mem_cons_of_mem first inRest)
      have firstPath := samePath first (by simp)
      rw [List.flatMap_cons, List.filter_append]
      rcases List.mem_cons.mp member with rfl | inRest
      · have kept : file.2.filter (·.path = file.1) = file.2 :=
          List.filter_eq_self.mpr fun operation inFile => by simpa using firstPath operation inFile
        have dropped : (files.flatMap Prod.snd).filter (·.path = file.1) = [] := by
          rw [List.filter_eq_nil_iff]
          intro operation inOthers
          obtain ⟨other, isOther, inOther⟩ := List.mem_flatMap.mp inOthers
          have ofOther := restPath other isOther operation inOther
          simp only [decide_eq_true_eq]
          intro sameFile
          exact firstNew (List.mem_map.mpr ⟨other, isOther, ofOther.symm.trans sameFile⟩)
        rw [kept, dropped, List.append_nil]
      · have dropped : first.2.filter (·.path = file.1) = [] := by
          rw [List.filter_eq_nil_iff]
          intro operation inFirst
          simp only [decide_eq_true_eq]
          intro sameFile
          have samePaths := (firstPath operation inFirst).symm.trans sameFile
          exact firstNew (List.mem_map.mpr ⟨file, inRest, samePaths.symm⟩)
        rw [dropped, List.nil_append, ih restDistinct restPath inRest]

end Apply

namespace Plan

/-- What a project is to hold at a path: a rendered text, which is merged with
what is there, or a document, which is written as a whole. -/
inductive Candidate where
  | rendered (text : LooseText)
  | document (content : Draft)

/-- The rendered files and the documents of a plan. -/
def candidates (rendered : Entries LooseText LooseText) (documents : Entries LooseText Draft) :
    Entries LooseText Candidate :=
  rendered.map (fun file => (file.1, .rendered file.2)) ++
    documents.map fun document => (document.1, .document document.2)

theorem rendered_mem_candidates_iff {rendered : Entries LooseText LooseText}
    {documents : Entries LooseText Draft} {path text : LooseText} :
    (path, Candidate.rendered text) ∈ candidates rendered documents ↔ (path, text) ∈ rendered := by
  simp [candidates]

theorem document_mem_candidates_iff {rendered : Entries LooseText LooseText}
    {documents : Entries LooseText Draft} {path : LooseText} {content : Draft} :
    (path, Candidate.document content) ∈ candidates rendered documents ↔
      (path, content) ∈ documents := by
  simp [candidates]

/-- What is planned for a path, as far as the markers of its rendered text are
in order. -/
def operationsOn (snapshot : Snapshot) (path : LooseText) : Candidate → List FileOperation
  | .rendered text => (fileOperations snapshot (path, text)).toOption.getD []
  | .document content => documentOperations snapshot (path, content)

/-- What is planned for each rendered file and each document. -/
def files (rendered : Entries LooseText LooseText) (snapshot : Snapshot)
    (documents : Entries LooseText Draft) : Entries LooseText (List FileOperation) :=
  (candidates rendered documents).map fun entry =>
    (entry.1, operationsOn snapshot entry.1 entry.2)

theorem keys_candidates (rendered : Entries LooseText LooseText)
    (documents : Entries LooseText Draft) :
    Entries.keys (candidates rendered documents) =
      Entries.keys rendered ++ Entries.keys documents := by
  simp [Entries.keys, candidates, Function.comp_def]

theorem keys_files (rendered : Entries LooseText LooseText) (snapshot : Snapshot)
    (documents : Entries LooseText Draft) :
    Entries.keys (files rendered snapshot documents) =
      Entries.keys rendered ++ Entries.keys documents := by
  rw [← keys_candidates]
  simp [Entries.keys, files, Function.comp_def]

theorem mapM_eq_ok_iff {ε α β : Type} (step : α → Except ε β) (items : List α)
    (results : List β) :
    items.mapM step = .ok results ↔ items.map step = results.map Except.ok := by
  induction items generalizing results with
  | nil => cases results <;> simp [pure, Except.pure]
  | cons item items ih =>
      rw [List.mapM_cons]
      cases first : step item with
      | error e => cases results <;> simp [Bind.bind, Except.bind, first]
      | ok value =>
          cases rest : items.mapM step with
          | error e =>
              have noResults : ∀ others : List β, items.map step ≠ others.map Except.ok := by
                intro others same
                rw [← ih, rest] at same
                contradiction
              cases results <;> simp_all [Bind.bind, Except.bind]
          | ok values =>
              have same := (ih values).mp rest
              cases results with
              | nil => simp [Bind.bind, Except.bind, pure, Except.pure]
              | cons result results =>
                  have others := ih results
                  rw [rest] at others
                  simp only [Except.ok.injEq] at others
                  simp [Bind.bind, Except.bind, pure, Except.pure, first, others]

/-- A plan succeeds when the markers of the rendered files that are there are in
order, and lists what is planned file by file. -/
theorem plan_eq_ok_iff {rendered : Entries LooseText LooseText} {snapshot : Snapshot}
    {documents : Entries LooseText Draft} {operations : List FileOperation} :
    plan rendered snapshot documents = .ok operations ↔
      (∀ file ∈ rendered, ∃ found, fileOperations snapshot file = .ok found) ∧
        operations = (files rendered snapshot documents).flatMap Prod.snd := by
  have flat : (files rendered snapshot documents).flatMap Prod.snd =
      rendered.flatMap (fun file => (fileOperations snapshot file).toOption.getD []) ++
        documents.flatMap (documentOperations snapshot) := by
    simp [files, candidates, operationsOn, List.flatMap_map]
  rw [flat, plan]
  cases planned : rendered.mapM (fileOperations snapshot) with
  | error conflict =>
      simp only [Bind.bind, Except.bind, reduceCtorEq, false_iff, not_and]
      intro allOk
      have mapped : rendered.map (fileOperations snapshot) =
          (rendered.map fun file =>
            (fileOperations snapshot file).toOption.getD []).map Except.ok := by
        rw [List.map_map]
        refine List.map_congr_left fun file member => ?_
        obtain ⟨found, isFound⟩ := allOk file member
        simp [isFound, Except.toOption]
      rw [← mapM_eq_ok_iff, planned] at mapped
      contradiction
  | ok found =>
      have mapped := (mapM_eq_ok_iff _ _ _).mp planned
      have isFound : (rendered.map fun file =>
          (fileOperations snapshot file).toOption.getD []) = found := by
        calc
          (rendered.map fun file => (fileOperations snapshot file).toOption.getD []) =
              (rendered.map (fileOperations snapshot)).map fun result =>
                result.toOption.getD [] := by
            rw [List.map_map]
            rfl
          _ = found := by
            rw [mapped, List.map_map]
            exact List.map_id' found
      have allOk : ∀ file ∈ rendered, ∃ found, fileOperations snapshot file = .ok found := by
        intro file member
        have inResults : fileOperations snapshot file ∈ found.map Except.ok :=
          mapped ▸ List.mem_map_of_mem member
        obtain ⟨operations, -, isOk⟩ := List.mem_map.mp inResults
        exact ⟨operations, isOk.symm⟩
      rw [List.flatMap_def (l := rendered), isFound]
      constructor
      · intro isPlan
        exact ⟨allOk, (Except.ok.inj isPlan).symm⟩
      · rintro ⟨-, rfl⟩
        rfl

/-- What happens to the regions of a file that is there: it is skipped as a whole, or each
of the wanted regions is skipped or patched. -/
inductive OnRegions (path : LooseText) (existing : Text) (rendered : LooseText)
    (wanted : List Region) : FileOperation → Prop
  | withoutRegions (noRegions : wanted = []) :
      OnRegions path existing rendered wanted (.skip path none .alreadyExists)
  | disorder (someWanted : wanted ≠ []) {conflict : Conflict}
      (isError : findRegions path.label existing = .error conflict) :
      OnRegions path existing rendered wanted (.skip path none (.conflict conflict))
  | missing {present : List Region} (found : findRegions path.label existing = .ok present)
      {region : Region} (inWanted : region ∈ wanted)
      (isMissing : present.find? (·.name = region.name) = none) :
      OnRegions path existing rendered wanted
        (.skip path (some region.name) (.regionMissing region.name))
  | patched {present : List Region} (found : findRegions path.label existing = .ok present)
      {region shared : Region} (inWanted : region ∈ wanted)
      (isShared : present.find? (·.name = region.name) = some shared) :
      OnRegions path existing rendered wanted
        (.patch path region.name (LooseText.draft (region.body rendered))
          (changesBody existing shared (LooseText.draft (region.body rendered))))

theorem onRegions_of_mem {path : LooseText} {existing : Text} {rendered : LooseText}
    {wanted : List Region} {operation : FileOperation}
    (member : operation ∈ regionOperations path existing rendered wanted) :
    OnRegions path existing rendered wanted operation := by
  rw [regionOperations] at member
  split at member
  next noRegions =>
    obtain rfl := List.mem_singleton.mp member
    exact .withoutRegions (List.isEmpty_iff.mp noRegions)
  next someRegions =>
    split at member
    next conflict isError =>
      obtain rfl := List.mem_singleton.mp member
      exact .disorder (by simpa using someRegions) isError
    next present found =>
      obtain ⟨region, inWanted, rfl⟩ := List.mem_map.mp member
      rw [regionOperation]
      split
      next isMissing => exact .missing found inWanted isMissing
      next shared isShared => exact .patched found inWanted isShared

theorem path_of_mem_regionOperations {path : LooseText} {existing : Text} {rendered : LooseText}
    {wanted : List Region} {operation : FileOperation}
    (member : operation ∈ regionOperations path existing rendered wanted) :
    operation.path = path := by
  cases onRegions_of_mem member <;> rfl

theorem path_of_mem_operationsOn {snapshot : Snapshot} {path : LooseText}
    {candidate : Candidate} {operation : FileOperation}
    (member : operation ∈ operationsOn snapshot path candidate) : operation.path = path := by
  cases candidate with
  | rendered text =>
      simp only [operationsOn, fileOperations] at member
      split at member
      · simp [Except.toOption] at member
      · split at member
        · simp_all [Except.toOption, FileOperation.create]
        · cases wanted : findRegions path.label text.shown with
          | error conflict =>
              simp [wanted, Bind.bind, Except.bind, Except.toOption] at member
          | ok regions =>
              simp only [wanted, Bind.bind, Except.bind, Except.toOption,
                Option.getD_some] at member
              exact path_of_mem_regionOperations member
  | document content =>
      simp only [operationsOn, documentOperations] at member
      split at member
      · simp at member
      · split at member <;> simp_all [FileOperation.create, FileOperation.regenerate]

/-- Every operation is on the path that it is planned for. -/
theorem path_of_mem_files {rendered : Entries LooseText LooseText} {snapshot : Snapshot}
    {documents : Entries LooseText Draft} :
    ∀ file ∈ files rendered snapshot documents, ∀ operation ∈ file.2,
      operation.path = file.1 := by
  intro file isFile operation member
  obtain ⟨entry, -, rfl⟩ := List.mem_map.mp isFile
  exact path_of_mem_operationsOn member

theorem filter_path_plan {rendered : Entries LooseText LooseText} {snapshot : Snapshot}
    {documents : Entries LooseText Draft} {operations : List FileOperation}
    (distinct : (Entries.keys rendered ++ Entries.keys documents).Nodup)
    (planned : plan rendered snapshot documents = .ok operations) {path : LooseText}
    {candidate : Candidate} (member : (path, candidate) ∈ candidates rendered documents) :
    operations.filter (·.path = path) = operationsOn snapshot path candidate := by
  obtain ⟨-, rfl⟩ := plan_eq_ok_iff.mp planned
  have isFile : (path, operationsOn snapshot path candidate) ∈
      files rendered snapshot documents :=
    List.mem_map.mpr ⟨(path, candidate), member, rfl⟩
  exact Apply.filter_flatMap_path (by rwa [keys_files]) path_of_mem_files isFile

/-- The operations of a plan by path are what was planned for each file. -/
theorem byPath_plan {rendered : Entries LooseText LooseText} {snapshot : Snapshot}
    {documents : Entries LooseText Draft} {operations : List FileOperation}
    (distinct : (Entries.keys rendered ++ Entries.keys documents).Nodup)
    (planned : plan rendered snapshot documents = .ok operations) :
    Apply.byPath operations = (files rendered snapshot documents).filter (!·.2.isEmpty) := by
  obtain ⟨-, rfl⟩ := plan_eq_ok_iff.mp planned
  exact Apply.byPath_flatMap _ (by rwa [keys_files]) path_of_mem_files

end Plan

end ApiWorkshop
